import RootHerald.Boot.EventLogTypes

/-! The event-log parser and analyser, over checked reads. Sizes taken from the log keep the
code's 32-bit and 64-bit unsigned types, so every sum of them wraps as it does there. -/
namespace RootHerald.Boot
open Lib

section Helpers

/-- The name loop at index i: a unit is read before it is tested for NUL. -/
def variableNameLoop (append : Bytes → UInt16 → Bytes) (data : Bytes) (nameLen : UInt64) (i : Nat) (name : Bytes) :
    Checked Bytes :=
  if i < nameLen.toNat ∧ i < 256 then do
    let ch ← readU16LE (data.drop (32 + i * 2))
    if ch = 0 then return name
    variableNameLoop append data nameLen (i + 1) (append name ch)
  else return name
termination_by 256 - i

/-- GUID (16) + UnicodeNameLength (8) + VariableDataLength (8) + UnicodeName + VariableData. -/
def variableName (append : Bytes → UInt16 → Bytes) (data : Bytes) : Checked Bytes := do
  if data.length < 32 then return []
  let nameLen ← readU64LE (data.drop 16)
  if data.length < (32 + nameLen * 2).toNat then return []
  variableNameLoop append data nameLen 0 []

/-- The analyser writes a question mark for a unit outside ASCII. -/
def extractEfiVariableName (data : Bytes) : Checked Bytes :=
  variableName (fun name ch => name ++ [if ch < 128 then ch.toUInt8 else '?'.toUInt8]) data

/-- A character the path scan keeps. -/
def isPathChar (ch : UInt16) : Bool :=
  ch = '\\'.toNat.toUInt16 || ch = '/'.toNat.toUInt16 || ('A'.toNat.toUInt16 ≤ ch && ch ≤ 'z'.toNat.toUInt16) ||
    ch = '.'.toNat.toUInt16 || ch = '-'.toNat.toUInt16 || ch = '_'.toNat.toUInt16

/-- A string the path scan returns at its NUL. -/
def isBootPath (result : Bytes) : Bool :=
  4 < result.length && (contains result (text ".efi") || contains result (text ".EFI") || contains result (text "\\"))

def bootAppPathLoop (data : Bytes) (i : Nat) (result : Bytes) : Checked Bytes :=
  if i + 1 < data.length then do
    let ch ← readU16LE (data.drop i)
    if isPathChar ch then
      bootAppPathLoop data (i + 2) (if ch < 128 then result ++ [ch.toUInt8] else result)
    else if ch = 0 ∧ result ≠ [] then
      if isBootPath result then return result
      bootAppPathLoop data (i + 2) []
    else bootAppPathLoop data (i + 2) []
  else return if result = [] then text "(binary device path)" else result
termination_by data.length - i

def extractBootAppPath (data : Bytes) : Checked Bytes :=
  if data.length < 32 then return text "(unknown path)" else bootAppPathLoop data 32 []

def isSecureBootEnabled (varName data : Bytes) : Checked Bool := do
  if varName ≠ text "SecureBoot" then return false
  if data.length < 33 then return false
  let nameLen ← readU64LE (data.drop 16)
  let dataLen ← readU64LE (data.drop 24)
  let dataOffset := (32 + nameLen * 2).toNat
  if dataOffset < data.length ∧ 1 ≤ dataLen then
    return (← readU8 (data.drop dataOffset)) = 1
  return false

def crtmVersionLoop (data : Bytes) (i : Nat) (version : Bytes) : Checked Bytes :=
  if i + 1 < data.length then do
    let ch ← readU16LE (data.drop i)
    if ch = 0 then return version
    crtmVersionLoop data (i + 2) (if ch < 128 then version ++ [ch.toUInt8] else version)
  else return version
termination_by data.length - i

end Helpers

section Records

/-- Size of a digest of a known algorithm: SHA-1, SHA-256, SHA-384, SHA-512, SM3. -/
def digestSize : UInt16 → Option Nat
  | 0x0004 => some 20
  | 0x000B => some 32
  | 0x000C => some 48
  | 0x000D => some 64
  | 0x0012 => some 32
  | _ => none

/-- The digest loop with n digests left; none is the jump to done. -/
def readDigests : Nat → DigestMap → Cursor → Checked (Option (DigestMap × Cursor))
  | 0, digests, c => return some (digests, c)
  | n + 1, digests, c => do
    if c.remaining < 2 then return none
    let algId ← readU16LE c.p
    let c := c.advance 2
    match digestSize algId with
    | none => return none
    | some size =>
      if c.remaining < size then return none
      let digest ← readRange c.p size
      readDigests n (digests.insert algId digest) (c.advance size)

/-- One pass of the record loop up to the classification; none is a break or a jump to done. -/
def readRecord (c : Cursor) : Checked (Option (EventLogEntry × Cursor)) := do
  let pcrIndex ← readU32LE c.p
  let c := c.advance 4
  let eventType ← readU32LE c.p
  let c := c.advance 4
  if c.remaining < 4 then return none
  let digestCount ← readU32LE c.p
  let c := c.advance 4
  if 8 < digestCount.toNat then return none
  match ← readDigests digestCount.toNat .empty c with
  | none => return none
  | some (digests, c) =>
    if c.remaining < 4 then return none
    let eventDataSize ← readU32LE c.p
    let c := c.advance 4
    if c.remaining < eventDataSize.toNat then return none
    let eventData ← readRange c.p eventDataSize.toNat
    return some (⟨pcrIndex, eventType, eventTypeName eventType, digests, eventData, [], none⟩,
      c.advance eventDataSize.toNat)

end Records

section Analysis

/-- Count an entry under its class and append it. -/
def EventLogAnalysis.push (a : EventLogAnalysis) (entry : EventLogEntry) (description : Bytes)
    (classification : Classification) : EventLogAnalysis :=
  let a := match classification with
    | .verified => { a with verifiedCount := a.verifiedCount + 1 }
    | .policy => { a with policyCount := a.policyCount + 1 }
    | .unknown => { a with unknownCount := a.unknownCount + 1 }
    | .revoked => { a with revokedCount := a.revokedCount + 1 }
  { a with entries := a.entries ++ [{ entry with description, classification := some classification }] }

/-- The variable arm: the Secure Boot state follows the last SecureBoot variable of any PCR. -/
def classifyVariable (a : EventLogAnalysis) (entry : EventLogEntry) : Checked EventLogAnalysis := do
  let varName ← extractEfiVariableName entry.eventData
  let enabled ← if varName = text "SecureBoot" then isSecureBootEnabled varName entry.eventData
    else pure a.secureBootEnabled
  let state := if varName = text "SecureBoot" then
    (if enabled then text " (ENABLED)" else text " (DISABLED)") else []
  let isKeyDb := varName = text "PK" ∨ varName = text "KEK" ∨ varName = text "db" ∨ varName = text "dbx"
  let keys := if isKeyDb then text " (Secure Boot key database)" else []
  let microsoft := a.secureBootMicrosoftKeys || (varName = text "db" || varName = text "KEK")
  return { a with secureBootEnabled := enabled, secureBootMicrosoftKeys := microsoft }.push entry
    (text "EFI Variable: " ++ varName ++ state ++ keys) .policy

/-- The classification switch. -/
def classifyEntry (a : EventLogAnalysis) (entry : EventLogEntry) : Checked EventLogAnalysis := do
  match entry.eventType with
  | EV_EFI_VARIABLE_DRIVER_CONFIG | EV_EFI_VARIABLE_BOOT | EV_EFI_VARIABLE_BOOT2 => classifyVariable a entry
  | EV_EFI_BOOT_SERVICES_APPLICATION =>
    return a.push entry (text "Boot Application: " ++ (← extractBootAppPath entry.eventData)) .verified
  | EV_EFI_BOOT_SERVICES_DRIVER =>
    return a.push entry (text "Boot Driver: " ++ (← extractBootAppPath entry.eventData)) .verified
  | EV_EFI_PLATFORM_FIRMWARE_BLOB | EV_EFI_PLATFORM_FIRMWARE_BLOB2 =>
    return a.push entry (text "Platform Firmware Blob") .verified
  | EV_S_CRTM_VERSION =>
    return a.push entry (text "CRTM/BIOS Version: " ++ (← crtmVersionLoop entry.eventData 0 [])) .verified
  | EV_POST_CODE | EV_S_CRTM_CONTENTS | EV_CPU_MICROCODE =>
    return a.push entry (eventTypeName entry.eventType) .verified
  | EV_SEPARATOR => return a.push entry (text "Separator (transition to OS measurements)") .policy
  | EV_EFI_ACTION => return a.push entry (text "EFI Action: " ++ entry.eventData) .policy
  | EV_EFI_VARIABLE_AUTHORITY =>
    return a.push entry (text "EFI Variable Authority (certificate used for Secure Boot verification)") .policy
  | EV_EFI_GPT_EVENT => return a.push entry (text "GPT Partition Table") .policy
  | EV_NO_ACTION => return a.push entry (text "No Action (informational)") .policy
  | EV_EFI_HANDOFF_TABLES | EV_EFI_HANDOFF_TABLES2 =>
    return a.push entry (text "EFI Handoff Tables (SMBIOS/ACPI)") .policy
  | EV_PLATFORM_CONFIG_FLAGS => return a.push entry (text "Platform Configuration Flags") .policy
  | EV_COMPACT_HASH => return a.push entry (text "Compact Hash (Windows integrity measurement)") .verified
  | EV_EFI_RUNTIME_SERVICES_DRIVER =>
    return a.push entry (text "Runtime Driver: " ++ (← extractBootAppPath entry.eventData)) .verified
  | _ =>
    let pcr := text "PCR[" ++ decimal entry.pcrIndex.toNat
    if 11 ≤ entry.pcrIndex ∧ entry.pcrIndex ≤ 14 then
      return a.push entry (text "Windows OS measurement (" ++ pcr ++ text "])") .verified
    return a.push entry (eventTypeName entry.eventType ++ text " (" ++ pcr ++ text "])") .unknown

/-- The verdict of the counts and the Secure Boot state. -/
def generateVerdict (a : EventLogAnalysis) : EventLogAnalysis :=
  if a.secureBootEnabled ∧ a.revokedCount = 0 then
    if a.unknownCount = 0 then
      { a with verdict := some .pass
               verdictReason := text "Secure Boot enabled, all boot components verified, no revoked components" }
    else
      { a with verdict := some .warning
               verdictReason := text "Secure Boot enabled, but " ++ decimal a.unknownCount ++
                 text " unknown measurement(s) detected" }
  else if ¬ a.secureBootEnabled then
    { a with verdict := some .fail
             verdictReason := text "Secure Boot is DISABLED — boot chain integrity cannot be guaranteed" }
  else if 0 < a.revokedCount then
    { a with verdict := some .fail
             verdictReason := decimal a.revokedCount ++
               text " revoked/known-bad component(s) detected in boot chain" }
  else
    { a with verdict := some .warning
             verdictReason := text "Could not determine Secure Boot status" }

/-- The Spec ID header is skipped when its length, summed in 32 bits, fits the log. -/
def skipHeader (c : Cursor) : Checked Cursor := do
  if c.remaining < 32 then return c
  let _pcrIndex ← readU32LE c.p
  let eventType ← readU32LE (c.p.drop 4)
  if eventType ≠ EV_NO_ACTION then return c
  let eventDataSize ← readU32LE (c.p.drop 28)
  let skip := (32 + eventDataSize).toNat
  return if skip ≤ c.remaining then c.advance skip else c

end Analysis

section Loop

private theorem readDigests_remaining {n : Nat} {m m' : DigestMap} {c c' : Cursor}
    (h : readDigests n m c = .ok (some (m', c'))) : c'.remaining ≤ c.remaining := by
  induction n generalizing m c with
  | zero =>
    simp only [readDigests, pure_eq_ok, Except.ok.injEq, Option.some.injEq, Prod.mk.injEq] at h
    rw [h.2]
  | succ n ih =>
    simp only [readDigests] at h
    split at h
    · simp at h
    rename_i hlen
    obtain ⟨algId, -, h⟩ := bind_eq_ok h
    split at h
    · simp at h
    rename_i size _
    split at h
    · simp at h
    rename_i hsize
    obtain ⟨digest, -, h⟩ := bind_eq_ok h
    have hle := ih h
    simp only [Cursor.advance] at hle hsize
    rw [sub64_of_le (by omega)] at hle hsize
    rw [sub64_of_le (by omega)] at hle
    omega

/-- A decoded record consumed at least its sixteen fixed bytes. -/
theorem readRecord_remaining {c c' : Cursor} {entry : EventLogEntry} (h : readRecord c = .ok (some (entry, c')))
    (hc : 12 ≤ c.remaining) : c'.remaining + 16 ≤ c.remaining := by
  simp only [readRecord] at h
  obtain ⟨pcrIndex, -, h⟩ := bind_eq_ok h
  obtain ⟨eventType, -, h⟩ := bind_eq_ok h
  have h8 : ((c.advance 4).advance 4).remaining = c.remaining - 8 := by
    simp only [Cursor.advance]
    rw [sub64_of_le (a := c.remaining) (by omega), sub64_of_le (by omega)]
    omega
  split at h
  · simp at h
  obtain ⟨digestCount, -, h⟩ := bind_eq_ok h
  split at h
  · simp at h
  obtain ⟨digests, hd, h⟩ := bind_eq_ok h
  rcases digests with _ | ⟨m, d⟩
  · simp at h
  have hle := readDigests_remaining hd
  have h12 : (((c.advance 4).advance 4).advance 4).remaining = c.remaining - 12 := by
    rw [Cursor.advance, h8]
    exact (sub64_of_le (by omega)).trans (by omega)
  simp only at h
  split at h
  · simp at h
  obtain ⟨eventDataSize, -, h⟩ := bind_eq_ok h
  split at h
  · simp at h
  rename_i hdata
  obtain ⟨eventData, -, h⟩ := bind_eq_ok h
  simp only [pure_eq_ok, Except.ok.injEq, Option.some.injEq, Prod.mk.injEq] at h
  rw [← h.2]
  simp only [Cursor.advance] at hdata ⊢
  rw [sub64_of_le (a := d.remaining) (by omega)] at hdata ⊢
  rw [sub64_of_le (by omega)]
  omega

/-- Decode and classify records while one can be decoded. -/
def parseLoop (c : Cursor) (a : EventLogAnalysis) : Checked EventLogAnalysis :=
  if hc : 12 ≤ c.remaining then
    match h : readRecord c with
    | .error e => .error e
    | .ok none => .ok a
    | .ok (some (entry, c')) =>
      have := readRecord_remaining h hc
      classifyEntry a entry >>= parseLoop c'
  else .ok a
termination_by c.remaining

def parseAndAnalyzeEventLog (rawLog : Bytes) : Checked EventLogAnalysis := do
  let c ← skipHeader ⟨rawLog, rawLog.length⟩
  return generateVerdict (← parseLoop c {})

end Loop

end RootHerald.Boot
