import RootHerald.Boot.EventLogBounds

/-! What one decoded record does to the analysis, and from it what a whole log does. -/
namespace RootHerald.Boot
open Lib

section Switch

/-- The types whose event data starts with a variable header. -/
def IsVariableEvent (eventType : UInt32) : Prop :=
  eventType = EV_EFI_VARIABLE_DRIVER_CONFIG ∨ eventType = EV_EFI_VARIABLE_BOOT ∨ eventType = EV_EFI_VARIABLE_BOOT2

instance : DecidablePred IsVariableEvent := fun _ => inferInstanceAs (Decidable (_ ∨ _ ∨ _))

/-- The class the switch gives, whatever the event data. -/
def switchClass (pcrIndex eventType : UInt32) : Classification :=
  match eventType with
  | EV_EFI_VARIABLE_DRIVER_CONFIG | EV_EFI_VARIABLE_BOOT | EV_EFI_VARIABLE_BOOT2 => .policy
  | EV_EFI_BOOT_SERVICES_APPLICATION | EV_EFI_BOOT_SERVICES_DRIVER | EV_EFI_PLATFORM_FIRMWARE_BLOB
  | EV_EFI_PLATFORM_FIRMWARE_BLOB2 | EV_S_CRTM_VERSION | EV_POST_CODE | EV_S_CRTM_CONTENTS | EV_CPU_MICROCODE
  | EV_COMPACT_HASH | EV_EFI_RUNTIME_SERVICES_DRIVER => .verified
  | EV_SEPARATOR | EV_EFI_ACTION | EV_EFI_VARIABLE_AUTHORITY | EV_EFI_GPT_EVENT | EV_NO_ACTION
  | EV_EFI_HANDOFF_TABLES | EV_EFI_HANDOFF_TABLES2 | EV_PLATFORM_CONFIG_FLAGS => .policy
  | _ => if 11 ≤ pcrIndex ∧ pcrIndex ≤ 14 then .verified else .unknown

private theorem classifyEntry_variable (a : EventLogAnalysis) (entry : EventLogEntry)
    (h : IsVariableEvent entry.eventType) :
    classifyEntry a entry = classifyVariable a entry ∧ switchClass entry.pcrIndex entry.eventType = .policy := by
  unfold classifyEntry switchClass
  rcases h with h | h | h <;> rw [h] <;> exact ⟨rfl, rfl⟩

/-- Off the variable arm an entry is counted and appended, and nothing else changes. -/
private theorem classifyEntry_other (a : EventLogAnalysis) (entry : EventLogEntry)
    (h : ¬ IsVariableEvent entry.eventType) :
    ∃ d, classifyEntry a entry = .ok (a.push entry d (switchClass entry.pcrIndex entry.eventType)) := by
  obtain ⟨path, hpath⟩ := extractBootAppPath_ok entry.eventData
  obtain ⟨version, hversion⟩ := crtmVersionLoop_ok entry.eventData 0 []
  unfold classifyEntry
  split <;> rename_i heq
  case h_22 =>
    have hclass : switchClass entry.pcrIndex entry.eventType =
        if 11 ≤ entry.pcrIndex ∧ entry.pcrIndex ≤ 14 then .verified else .unknown := by
      unfold switchClass
      split <;> first | rfl | contradiction
    rw [hclass]
    split_ifs <;> exact ⟨_, rfl⟩
  all_goals rw [heq] at h ⊢
  iterate 3 exact absurd h (by decide)
  all_goals first
    | exact ⟨_, rfl⟩
    | (rw [hpath]; exact ⟨_, rfl⟩)
    | (rw [hversion]; exact ⟨_, rfl⟩)

end Switch

namespace EventRecord

/-- Every name the analyser reads from the record lies inside its event data. -/
def InBounds (r : EventRecord) : Prop := IsVariableEvent r.eventType → NameInBounds r.eventData

instance (r : EventRecord) : Decidable r.InBounds := inferInstanceAs (Decidable (_ → _))

/-- The Secure Boot state a SecureBoot variable sets, on any PCR. -/
def secureBootSetting (r : EventRecord) : Option Bool :=
  if IsVariableEvent r.eventType ∧ extractEfiVariableName r.eventData = .ok (text "SecureBoot") then
    some (isSecureBootEnabled (text "SecureBoot") r.eventData = .ok true)
  else none

/-- The class the switch gives the record. -/
def switchClass (r : EventRecord) : Classification := Boot.switchClass r.pcrIndex r.eventType

/-- The entry a classified record leaves in the analysis. -/
def Classified (r : EventRecord) (e : EventLogEntry) : Prop :=
  ∃ d, e = { r.entry with description := d, classification := some r.switchClass }

end EventRecord

private theorem classifyVariable_ok (a : EventLogAnalysis) {entry : EventLogEntry} {name : Bytes}
    (h : extractEfiVariableName entry.eventData = .ok name) :
    ∃ b d m, isSecureBootEnabled name entry.eventData = .ok b ∧ classifyVariable a entry =
      .ok ({ a with secureBootEnabled := if name = text "SecureBoot" then b else a.secureBootEnabled
                    secureBootMicrosoftKeys := m }.push entry d .policy) := by
  obtain ⟨b, hb⟩ := isSecureBootEnabled_ok name entry.eventData
  unfold classifyVariable
  rw [h, ok_bind, hb]
  split_ifs <;> exact ⟨b, _, _, rfl, rfl⟩

private theorem classifyVariable_ok_iff (a : EventLogAnalysis) (entry : EventLogEntry) :
    (∃ a', classifyVariable a entry = .ok a') ↔ NameInBounds entry.eventData := by
  refine Iff.trans ?_ (variableName_ok_iff (fun name ch => name ++ [if ch < 128 then ch.toUInt8 else '?'.toUInt8]) _)
  constructor
  · rintro ⟨a', h⟩
    obtain ⟨name, hname, -⟩ := bind_eq_ok h
    exact ⟨name, hname⟩
  · rintro ⟨name, hname⟩
    obtain ⟨b, d, m, -, h⟩ := classifyVariable_ok a hname
    exact ⟨_, h⟩

theorem classifyRecord_ok_iff (a : EventLogAnalysis) (r : EventRecord) :
    (∃ a', classifyRecord a r = .ok a') ↔ r.InBounds := by
  unfold classifyRecord EventRecord.InBounds
  by_cases hv : IsVariableEvent r.eventType
  · rw [(classifyEntry_variable a r.entry hv).1, classifyVariable_ok_iff]
    exact ⟨fun h _ => h, fun h => h hv⟩
  · obtain ⟨d, hd⟩ := classifyEntry_other a r.entry hv
    exact ⟨fun _ h => absurd h hv, fun _ => ⟨_, hd⟩⟩

/-- One record: its Secure Boot setting, its class and one entry. -/
theorem classifyRecord_spec {a a' : EventLogAnalysis} {r : EventRecord} (h : classifyRecord a r = .ok a') :
    ∃ d m, a' = { a with secureBootEnabled := r.secureBootSetting.getD a.secureBootEnabled
                         secureBootMicrosoftKeys := m }.push r.entry d r.switchClass := by
  unfold classifyRecord at h
  by_cases hv : IsVariableEvent r.eventType
  · obtain ⟨harm, hclass⟩ := classifyEntry_variable a r.entry hv
    rw [harm] at h
    obtain ⟨name, hname, -⟩ := bind_eq_ok h
    obtain ⟨b, d, m, hb, hpush⟩ := classifyVariable_ok a hname
    rw [hpush] at h
    cases h
    change extractEfiVariableName r.eventData = _ at hname
    change isSecureBootEnabled name r.eventData = _ at hb
    refine ⟨d, m, ?_⟩
    rw [EventRecord.switchClass, show Boot.switchClass r.pcrIndex r.eventType = .policy from hclass]
    simp only [EventRecord.secureBootSetting, hv, true_and, hname, Except.ok.injEq]
    by_cases hsb : name = text "SecureBoot"
    · subst hsb
      simp [hb]
    · simp [hsb]
  · obtain ⟨d, hd⟩ := classifyEntry_other a r.entry hv
    rw [hd] at h
    cases h
    refine ⟨d, a.secureBootMicrosoftKeys, ?_⟩
    simp only [EventRecord.secureBootSetting, hv, false_and, if_false, Option.getD_none]
    rfl

namespace EventLogAnalysis
variable (a : EventLogAnalysis) (entry : EventLogEntry) (d : Bytes) (c : Classification)

@[simp] theorem push_entries : (a.push entry d c).entries =
    a.entries ++ [{ entry with description := d, classification := some c }] := by
  cases c <;> rfl

@[simp] theorem push_secureBootEnabled : (a.push entry d c).secureBootEnabled = a.secureBootEnabled := by
  cases c <;> rfl

@[simp] theorem push_unknownCount : (a.push entry d c).unknownCount =
    a.unknownCount + if c = .unknown then 1 else 0 := by
  cases c <;> rfl

theorem push_revokedCount (h : c ≠ .revoked) : (a.push entry d c).revokedCount = a.revokedCount := by
  cases c with
  | revoked => exact absurd rfl h
  | _ => rfl

end EventLogAnalysis

/-- No arm of the switch revokes a component. -/
theorem switchClass_ne_revoked (pcrIndex eventType : UInt32) : switchClass pcrIndex eventType ≠ .revoked := by
  unfold switchClass
  split
  case h_22 => split_ifs <;> decide
  all_goals decide

section Run

/-- The state the last SecureBoot variable of the records sets. -/
def lastSetting (rs : List EventRecord) : Option Bool := (rs.filterMap EventRecord.secureBootSetting).getLast?

private theorem lastSetting_cons (r : EventRecord) (rs : List EventRecord) :
    lastSetting (r :: rs) = (lastSetting rs).or r.secureBootSetting := by
  unfold lastSetting
  rw [List.filterMap_cons]
  cases r.secureBootSetting with
  | none => simp
  | some b => simp [List.getLast?_cons]

/-- What a run of records does to an analysis. -/
structure Analyses (a : EventLogAnalysis) (rs : List EventRecord) (a' : EventLogAnalysis) : Prop where
  entries : ∃ es, a'.entries = a.entries ++ es ∧ List.Forall₂ EventRecord.Classified rs es
  secureBootEnabled : a'.secureBootEnabled = (lastSetting rs).getD a.secureBootEnabled
  unknownCount : a'.unknownCount = a.unknownCount + rs.countP (fun r => r.switchClass = .unknown)
  revokedCount : a'.revokedCount = a.revokedCount

theorem foldlM_classifyRecord {rs : List EventRecord} {a a' : EventLogAnalysis}
    (h : rs.foldlM classifyRecord a = .ok a') : Analyses a rs a' := by
  induction rs generalizing a with
  | nil =>
    cases h
    exact ⟨⟨[], by simp, .nil⟩, rfl, rfl, rfl⟩
  | cons r rs ih =>
    rw [List.foldlM_cons] at h
    obtain ⟨a₁, h₁, h₂⟩ := bind_eq_ok h
    obtain ⟨d, m, rfl⟩ := classifyRecord_spec h₁
    obtain ⟨⟨es, hes, hrs⟩, hsb, hunknown, hrevoked⟩ := ih h₂
    refine ⟨⟨_ :: es, ?_, .cons ⟨d, rfl⟩ hrs⟩, ?_, ?_, ?_⟩
    · rw [hes, EventLogAnalysis.push_entries, List.append_assoc]
      rfl
    · rw [hsb, EventLogAnalysis.push_secureBootEnabled, lastSetting_cons]
      cases lastSetting rs <;> rfl
    · rw [hunknown, EventLogAnalysis.push_unknownCount, List.countP_cons]
      simp only [decide_eq_true_eq]
      omega
    · exact hrevoked.trans (EventLogAnalysis.push_revokedCount _ _ _ _ (switchClass_ne_revoked r.pcrIndex r.eventType))

end Run

section Log

/-- What the parser's header step leaves of a log. -/
def afterHeader (rawLog : Bytes) : Bytes :=
  match take32 (rawLog.drop 4), take32 (rawLog.drop 28) with
  | some (eventType, _), some (eventDataSize, _) =>
    if eventType = EV_NO_ACTION ∧ (32 + eventDataSize).toNat ≤ rawLog.length then
      rawLog.drop (32 + eventDataSize).toNat
    else rawLog
  | _, _ => rawLog

theorem afterHeader_length_le (rawLog : Bytes) : (afterHeader rawLog).length ≤ rawLog.length := by
  unfold afterHeader
  split
  · split_ifs <;> simp
  · exact le_rfl

/-- The records the parser meets in a log. -/
def decodedRecords (rawLog : Bytes) : List EventRecord := recordsFrom (afterHeader rawLog)

theorem skipHeader_eq (rawLog : Bytes) : skipHeader ⟨rawLog, rawLog.length⟩ = .ok (cursorAt (afterHeader rawLog)) := by
  unfold skipHeader afterHeader
  by_cases h32 : rawLog.length < 32
  · have hnone : take32 (rawLog.drop 28) = none := take32_eq_none.mpr (by rw [List.length_drop]; omega)
    rw [if_pos h32, hnone]
    cases take32 (rawLog.drop 4) <;> rfl
  · have hpcr : readU32LE rawLog = .ok (wordAt rawLog 0) := readU32LE_drop (i := 0) (by omega)
    have heventType : readU32LE (rawLog.drop 4) = .ok (wordAt rawLog 4) := readU32LE_drop (by omega)
    have hsize : readU32LE (rawLog.drop 28) = .ok (wordAt rawLog 28) := readU32LE_drop (by omega)
    rw [if_neg h32, take32_drop (by omega), take32_drop (by omega)]
    simp only [hpcr, heventType, hsize, ok_bind]
    generalize (32 + wordAt rawLog 28).toNat = skip
    by_cases hty : wordAt rawLog 4 = EV_NO_ACTION
    · by_cases hskip : skip ≤ rawLog.length
      · simp [hty, hskip, Cursor.advance, cursorAt]
      · simp [hty, hskip, cursorAt]
    · simp [hty, cursorAt]

theorem parseAndAnalyzeEventLog_eq (rawLog : Bytes) :
    parseAndAnalyzeEventLog rawLog = (decodedRecords rawLog).foldlM classifyRecord {} >>= fun a =>
      .ok (generateVerdict a) := by
  rw [parseAndAnalyzeEventLog, skipHeader_eq, ok_bind, parseLoop_cursorAt]
  rfl

/-- A log that is read in bounds, and what its analysis then is. -/
theorem parse_analyses {rawLog : Bytes} {a : EventLogAnalysis} (h : parseAndAnalyzeEventLog rawLog = .ok a) :
    ∃ a₀, Analyses {} (decodedRecords rawLog) a₀ ∧ a = generateVerdict a₀ := by
  rw [parseAndAnalyzeEventLog_eq] at h
  obtain ⟨a₀, h₀, ha⟩ := bind_eq_ok h
  exact ⟨a₀, foldlM_classifyRecord h₀, (Except.ok.inj ha).symm⟩

/-- A log is analysed without a fault exactly when its variable records name themselves in bounds. -/
theorem parse_ok_of_inBounds {rawLog : Bytes} (h : ∀ r ∈ decodedRecords rawLog, r.InBounds) :
    ∃ a, parseAndAnalyzeEventLog rawLog = .ok a := by
  obtain ⟨a, ha⟩ := (foldlM_ok_iff classifyRecord_ok_iff (decodedRecords rawLog) {}).mpr h
  rw [parseAndAnalyzeEventLog_eq, ha]
  exact ⟨generateVerdict a, rfl⟩

theorem inBounds_of_parse_ok {rawLog : Bytes} {a : EventLogAnalysis} (h : parseAndAnalyzeEventLog rawLog = .ok a) :
    ∀ r ∈ decodedRecords rawLog, r.InBounds := by
  rw [parseAndAnalyzeEventLog_eq] at h
  obtain ⟨a₀, h₀, -⟩ := bind_eq_ok h
  exact (foldlM_ok_iff classifyRecord_ok_iff _ _).mp ⟨a₀, h₀⟩

@[simp] theorem generateVerdict_entries (a : EventLogAnalysis) : (generateVerdict a).entries = a.entries := by
  unfold generateVerdict
  split_ifs <;> rfl

@[simp] theorem generateVerdict_secureBootEnabled (a : EventLogAnalysis) :
    (generateVerdict a).secureBootEnabled = a.secureBootEnabled := by
  unfold generateVerdict
  split_ifs <;> rfl

theorem generateVerdict_pass_iff (a : EventLogAnalysis) :
    (generateVerdict a).verdict = some .pass ↔ a.secureBootEnabled ∧ a.revokedCount = 0 ∧ a.unknownCount = 0 := by
  unfold generateVerdict
  split_ifs <;> simp_all

end Log

/-- The TCG_PCR_EVENT the log opens with, in the SHA-1 format. -/
structure SpecIdHeader where
  pcrIndex : UInt32
  digest : Bytes
  eventData : Bytes
  digest_length : digest.length = 20
  skip_lt : 32 + eventData.length < 2 ^ 32

namespace SpecIdHeader
variable (h : SpecIdHeader)

def write : Bytes :=
  bytes32 h.pcrIndex ++ (bytes32 EV_NO_ACTION ++ (h.digest ++
    (bytes32 (UInt32.ofNat h.eventData.length) ++ h.eventData)))

theorem write_length : h.write.length = 32 + h.eventData.length := by
  simp only [write, List.length_append, bytes32_length, h.digest_length]
  omega

theorem skip_eq : (32 + UInt32.ofNat h.eventData.length).toNat = h.write.length := by
  have := h.skip_lt
  rw [write_length, UInt32.toNat_add, UInt32.toNat_ofNat_of_lt' (by omega : h.eventData.length < 2 ^ 32)]
  exact Nat.mod_eq_of_lt h.skip_lt

@[simp] theorem afterHeader_write (rest : Bytes) : afterHeader (h.write ++ rest) = rest := by
  have h₄ : (h.write ++ rest).drop 4 = bytes32 EV_NO_ACTION ++ (h.digest ++
      (bytes32 (UInt32.ofNat h.eventData.length) ++ (h.eventData ++ rest))) := by
    simp only [write, List.append_assoc]
    exact List.drop_left' (bytes32_length _)
  have h₂₈ : (h.write ++ rest).drop 28 = bytes32 (UInt32.ofNat h.eventData.length) ++ (h.eventData ++ rest) := by
    rw [show 28 = 4 + 24 from rfl, ← List.drop_drop, h₄, ← List.append_assoc]
    exact List.drop_left' (by rw [List.length_append, bytes32_length, h.digest_length])
  simp only [afterHeader, h₄, h₂₈, take32_bytes32, skip_eq]
  rw [if_pos ⟨trivial, by rw [List.length_append]; omega⟩]
  exact List.drop_left

theorem decodedRecords_write (rest : Bytes) : decodedRecords (h.write ++ rest) = recordsFrom rest := by
  rw [decodedRecords, afterHeader_write]

theorem decodedRecords_writeAll (rs : List EventRecord) :
    decodedRecords (h.write ++ EventRecord.code.writeAll rs) = rs := by
  rw [decodedRecords_write, recordsFrom, EventRecord.code.readAll_eq (List.append_nil _).symm rfl]

end SpecIdHeader
end RootHerald.Boot
