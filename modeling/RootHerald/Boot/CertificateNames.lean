import RootHerald.Boot.VendorVariables
import RootHerald.Lib.CStrings

/-! The certificate parser over the system's decoder and hash, and the lengths of the texts that its
certificates bring into the verdict. -/
namespace RootHerald.Boot
open Lib

section Parser

def MS_UEFI_CA_2011_THUMBPRINT : Bytes := text "46DEF63B5CE61CF8BA0DE2E6639C1019D0ED14F3D65B68D78BA2B0461D4C2D65"
def MS_WIN_PCA_2011_THUMBPRINT : Bytes := text "580A6F4CC4E4B669B9EBDC1B2B3E087B80D0678D5E2A7BC341A0DC4B50BF2E27"
def MS_KEK_CA_2011_THUMBPRINT : Bytes := text "31590BFD89C9D74ED087DFAC6637B34BCA2028A586CA9CF9B79EF23B2C27A4A8"
def MS_UEFI_CA_2023_THUMBPRINT : Bytes := text "45A0FA32604773C82433C3B7D59E7466B3AC0C7CEEE2B40EA4EE0E14A0925F28"

def KNOWN_OEM_NAMES : List Bytes := [
  "Lenovo", "LENOVO",
  "Dell", "DELL",
  "HP", "Hewlett-Packard", "Hewlett Packard",
  "ASUS", "ASUSTeK",
  "Acer",
  "Microsoft",
  "Samsung",
  "Toshiba",
  "Fujitsu",
  "Intel",
  "AMI", "American Megatrends",
  "Phoenix",
  "Insyde",
  "ASRock",
  "Gigabyte",
  "MSI", "Micro-Star",
  "Razer",
  "Framework",
  "System76",
  "HUAWEI",
  "Xiaomi"].map text

/-- A name as CertNameToStrA leaves it in a buffer of 512 bytes. -/
structure NameText where
  bytes : Bytes
  fits : FitsBuffer 512 bytes

/-- Functions of the Windows CryptoAPI. -/
structure CertDecoder where
  /-- Subject and issuer, of a certificate that is decoded. -/
  decode : Bytes → Option (NameText × NameText)
  /-- No bytes when the hash fails. -/
  sha256 : Bytes → Bytes

def hexUpperDigit (v : Nat) : UInt8 :=
  if v < 10 then UInt8.ofNat ('0'.toNat + v) else UInt8.ofNat ('A'.toNat + (v - 10))

def bytesToHexUpper (data : Bytes) : Bytes :=
  data.flatMap fun b => [hexUpperDigit (b.toNat / 16), hexUpperDigit (b.toNat % 16)]

def toUpper (s : Bytes) : Bytes := s.map fun c => if 'a'.toUInt8 ≤ c ∧ c ≤ 'z'.toUInt8 then c - 32 else c

variable (decoder : CertDecoder)

def certThumbprint (der : Bytes) : Bytes := bytesToHexUpper (decoder.sha256 der)

/-- The first known name in subject or issuer. -/
def knownOem (subject issuer : Bytes) : Option Bytes :=
  KNOWN_OEM_NAMES.find? fun name => contains subject name || contains issuer name

def parseDerCertificate (der : Bytes) : CertInfo :=
  match decoder.decode der with
  | none => {}
  | some (subject, issuer) =>
    let thumbUpper := toUpper (certThumbprint decoder der)
    { subject := subject.bytes
      issuer := issuer.bytes
      isMicrosoftCert := thumbUpper = MS_UEFI_CA_2011_THUMBPRINT || thumbUpper = MS_WIN_PCA_2011_THUMBPRINT ||
        thumbUpper = MS_KEK_CA_2011_THUMBPRINT || thumbUpper = MS_UEFI_CA_2023_THUMBPRINT ||
        contains subject.bytes (text "Microsoft")
      isKnownOem := (knownOem subject.bytes issuer.bytes).isSome
      oemName := (knownOem subject.bytes issuer.bytes).getD [] }

end Parser

section Bounds

/-- A subject of the buffer of 512 bytes, and a name of the table. -/
structure CertInfo.Bounded (c : CertInfo) : Prop where
  subject : FitsBuffer 512 c.subject
  oemName : FitsBuffer 20 c.oemName

theorem knownOemNames_fit : ∀ name ∈ KNOWN_OEM_NAMES, FitsBuffer 20 name := by decide +kernel

theorem parseDerCertificate_bounded (decoder : CertDecoder) (der : Bytes) :
    (parseDerCertificate decoder der).Bounded := by
  rw [parseDerCertificate]
  cases decoder.decode der with
  | none => exact ⟨fitsBuffer_nil (by decide), fitsBuffer_nil (by decide)⟩
  | some names =>
    obtain ⟨subject, issuer⟩ := names
    refine ⟨subject.fits, ?_⟩
    dsimp only
    cases hoem : knownOem subject.bytes issuer.bytes with
    | none => exact fitsBuffer_nil (by decide)
    | some name => exact knownOemNames_fit name (List.mem_of_find?_eq_some hoem)

section Lists
variable {parse : Bytes → CertInfo} {P : CertInfo → Prop}

/-- The entry loop appends what it parses. -/
private theorem signatureEntriesLoop_all (hparse : ∀ der, P (parse der)) {p : Bytes} {listSize sigSize : UInt32}
    {offset : Nat} {certs certs' : List CertInfo} (hcerts : ∀ c ∈ certs, P c)
    (h : signatureEntriesLoop parse p listSize sigSize offset certs = .ok certs') : ∀ c ∈ certs', P c := by
  fun_induction signatureEntriesLoop parse p listSize sigSize offset certs with
  | case1 offset certs _ certLen _ _ ih =>
    obtain ⟨der, hder, h⟩ := bind_eq_ok h
    refine ih _ ?_ h
    split_ifs
    · exact hcerts
    · exact List.forall_mem_append.mpr ⟨hcerts, List.forall_mem_singleton.mpr (hparse der)⟩
  | case2 offset certs _ certLen _ _ ih => exact ih certs hcerts h
  | case3 offset certs _ =>
    cases h
    exact hcerts

private theorem signatureListLoop_all (hparse : ∀ der, P (parse der)) {s : Bytes} {remaining : Nat}
    {certs certs' : List CertInfo} (hcerts : ∀ c ∈ certs, P c)
    (h : signatureListLoop parse s remaining certs = .ok certs') : ∀ c ∈ certs', P c := by
  fun_induction signatureListLoop parse s remaining certs with
  | case1 s remaining certs hr ih =>
    obtain ⟨listSize, -, h⟩ := bind_eq_ok h
    obtain ⟨headerSize, -, h⟩ := bind_eq_ok h
    obtain ⟨sigSize, -, h⟩ := bind_eq_ok h
    split_ifs at h with hstop
    · cases h
      exact hcerts
    · obtain ⟨sigType, -, h⟩ := bind_eq_ok h
      dsimp only at h
      split_ifs at h with hx509
      · obtain ⟨certs₁, hentries, h⟩ := bind_eq_ok h
        exact ih listSize hstop certs₁ (signatureEntriesLoop_all hparse hcerts hentries) h
      · exact ih listSize hstop certs hcerts h
  | case2 s remaining certs hr =>
    cases h
    exact hcerts

/-- Whatever holds of each certificate that is parsed holds of all that a variable yields. -/
theorem parseEfiSignatureList_all (hparse : ∀ der, P (parse der)) {d : Bytes} {certs : List CertInfo}
    (h : parseEfiSignatureList parse d = .ok certs) : ∀ c ∈ certs, P c := by
  by_cases h32 : d.length < 32
  · rw [parseEfiSignatureList, if_pos h32] at h
    cases h
    exact List.forall_mem_nil P
  · rw [parseEfiSignatureList_eq parse (Nat.not_lt.mp h32)] at h
    split_ifs at h
    · cases h
      exact List.forall_mem_nil P
    · exact signatureListLoop_all hparse (List.forall_mem_nil P) h

theorem keyLists_all (hparse : ∀ der, P (parse der)) (rs : List EventRecord) :
    ∀ key ∈ keyLists parse rs, ∀ c ∈ key.2, P c := by
  intro key hkey
  obtain ⟨r, -, hlist⟩ := List.mem_filterMap.mp hkey
  exact parseEfiSignatureList_all hparse ((EventRecord.keyList_eq_some parse).mp hlist).2.2

end Lists

section Verdict

/-- What the Platform Key brings into a report. -/
structure SecureBootChainReport.Bounded (report : SecureBootChainReport) : Prop where
  pkCerts : ∀ c ∈ report.pkCerts, c.Bounded
  pkOemName : FitsBuffer 20 report.pkOemName

variable {keys : List (Bytes × List CertInfo)}

theorem mem_listsNamed {varName : Bytes} {certs : List CertInfo} (h : certs ∈ listsNamed varName keys) :
    (varName, certs) ∈ keys := by
  obtain ⟨key, hkey, hcerts⟩ := List.mem_filterMap.mp h
  split_ifs at hcerts with hname
  obtain rfl := Option.some.inj hcerts
  exact hname ▸ hkey

/-- The collected report quotes certificates of the lists. -/
theorem collect_bounded (enabled : Bool) (hkeys : ∀ key ∈ keys, ∀ c ∈ key.2, c.Bounded) :
    (collect { secureBootEnabled := enabled } keys).Bounded := by
  have hsummary := (collect_eq enabled keys).2.1
  have hcerts : (collect { secureBootEnabled := enabled } keys).pkCerts = _ := congrArg KeySummary.pkCerts hsummary
  have hname : (collect { secureBootEnabled := enabled } keys).pkOemName = _ := congrArg KeySummary.pkOemName hsummary
  constructor
  · rw [hcerts, keySummary]
    cases hlast : (listsNamed (text "PK") keys).getLast? with
    | none => exact List.forall_mem_nil _
    | some certs => exact hkeys _ (mem_listsNamed (List.mem_of_getLast? hlast))
  · rw [hname, keySummary]
    cases hlast : ((listsNamed (text "PK") keys).filterMap CertInfo.oemNamed).getLast? with
    | none => exact fitsBuffer_nil (by decide)
    | some name =>
      obtain ⟨certs, hnamed, hoem⟩ := List.mem_filterMap.mp (List.mem_of_getLast? hlast)
      obtain ⟨c, hc, rfl⟩ := Option.map_eq_some_iff.mp hoem
      exact (hkeys _ (mem_listsNamed hnamed) c (List.mem_filter.mp (List.mem_of_getLast? hc)).1).oemName

/-- The texts of verdicts, errors and warnings, with what they quote left out. -/
theorem verdictTexts_fit :
    (∀ s ∈ [text "FAIL: ", text "WARNING: "], FitsBuffer (9 + 1) s) ∧
    FitsBuffer (51 + 1) (text "Platform Key issuer not recognized as a known OEM: ") ∧
    FitsBuffer (52 + 1) (text "PASS: Secure Boot chain fully validated — PK from ") ∧
    FitsBuffer 49 (text ", Microsoft UEFI CA in db, Microsoft KEK present") ∧
    ∀ s ∈ [text "FAIL: Secure Boot disabled", text "FAIL: No Platform Key",
      text "KEK does not contain Microsoft's KEK certificate — boot chain may not be controlled by Microsoft",
      text ("db does not contain Microsoft's UEFI CA — " ++
        "only Microsoft-signed boot components are trusted on standard systems")], FitsBuffer 563 s := by
  simp only [List.forall_mem_cons]
  refine ⟨⟨?_, ?_, List.forall_mem_nil _⟩, ?_, ?_, ?_, ?_, ?_, ?_, ?_, List.forall_mem_nil _⟩
  all_goals decide +kernel

variable {report : SecureBootChainReport}

theorem finalVerdict_fits (herrors : ∀ e ∈ report.errors, FitsBuffer 563 e)
    (hwarnings : ∀ w ∈ report.warnings, FitsBuffer 563 w) (hname : FitsBuffer 20 report.pkOemName) :
    FitsBuffer 572 (finalVerdict report).verdict := by
  obtain ⟨hstart, -, hpass, hend, -⟩ := verdictTexts_fit
  rw [finalVerdict]
  split
  next heq => exact (hstart _ (by simp)).append (herrors _ (heq ▸ List.mem_cons_self))
  next heq => exact (hstart _ (by simp)).append (hwarnings _ (heq ▸ List.mem_cons_self))
  next =>
    have hnamed : FitsBuffer (71 + 1) _ := hpass.append hname
    exact (hnamed.append hend).mono (by decide)

/-- A verdict quotes one subject or one name at most. -/
theorem judgeChain_verdict_fits (herrors : report.errors = []) (hwarnings : report.warnings = [])
    (h : report.Bounded) : FitsBuffer 572 (judgeChain report).verdict := by
  obtain ⟨-, hunknown, -, -, hown⟩ := verdictTexts_fit
  rw [judgeChain]
  by_cases hsb : report.secureBootEnabled = true
  · rw [if_neg (not_not_intro hsb)]
    by_cases hcerts : report.pkCerts = []
    · rw [if_pos hcerts]
      exact (hown _ (by simp)).mono (by decide)
    · rw [if_neg hcerts]
      obtain ⟨c, cs, hpk⟩ := List.exists_cons_of_ne_nil hcerts
      have hsubject := (h.pkCerts c (hpk ▸ List.mem_cons_self)).subject
      have hwarning : FitsBuffer 563 _ := hunknown.append hsubject
      have hkek := hown
        (text "KEK does not contain Microsoft's KEK certificate — boot chain may not be controlled by Microsoft") (by simp)
      have hdb := hown (text ("db does not contain Microsoft's UEFI CA — " ++
        "only Microsoft-signed boot components are trusted on standard systems")) (by simp)
      dsimp only
      split_ifs <;> refine finalVerdict_fits ?_ ?_ h.pkOemName <;>
        simp [herrors, hwarnings, hpk, hwarning, hkek, hdb, -String.reduceAppend]
  · rw [if_pos hsb]
    exact (hown _ (by simp)).mono (by decide)

/-- The texts of any report on a log whose certificates the decoder names. -/
theorem conclude_fits (decoder : CertDecoder) (rs : List EventRecord) :
    FitsBuffer 572 (conclude (parseDerCertificate decoder) rs).verdict ∧
      FitsBuffer 20 (conclude (parseDerCertificate decoder) rs).pkOemName := by
  have hbounded := collect_bounded (lastSetting rs = some true)
    (keyLists_all (parseDerCertificate_bounded decoder) rs)
  obtain ⟨-, -, -, -, hwarnings, herrors⟩ := collect_eq (lastSetting rs = some true)
    (keyLists (parseDerCertificate decoder) rs)
  constructor
  · exact judgeChain_verdict_fits herrors hwarnings hbounded
  · rw [conclude, judgeChain_eq]
    exact hbounded.pkOemName

end Verdict
end Bounds
end RootHerald.Boot
