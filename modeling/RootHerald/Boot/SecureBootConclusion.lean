import RootHerald.Boot.EventLogDecoding
import RootHerald.Boot.KeyLists

/-! What the Secure Boot conclusion depends on: the SecureBoot variables of every PCR beside the
key lists of PCR 7, and never the bytes behind the last decoded record. -/
namespace RootHerald.Boot
open Lib

namespace CertInfo

def isUefiCa2011 (c : CertInfo) : Bool := contains c.subject (text "Microsoft Corporation UEFI CA 2011")

def isUefiCa2023 (c : CertInfo) : Bool :=
  contains c.subject (text "Microsoft UEFI CA 2023") || contains c.subject (text "Windows UEFI CA 2023")

def isWindowsPca2011 (c : CertInfo) : Bool := contains c.subject (text "Microsoft Windows Production PCA 2011")

/-- A certificate of a Microsoft or Windows UEFI CA, by subject. -/
def isUefiCa (c : CertInfo) : Bool :=
  contains c.subject (text "Microsoft Corporation UEFI CA 2011") ||
    (contains c.subject (text "Microsoft UEFI CA 2023") || contains c.subject (text "Windows UEFI CA 2023"))

theorem any_isUefiCa (certs : List CertInfo) :
    certs.any isUefiCa = (certs.any isUefiCa2011 || certs.any isUefiCa2023) := by
  induction certs with
  | nil => rfl
  | cons c certs ih =>
    rw [List.any_cons, List.any_cons, List.any_cons, ih, show c.isUefiCa = (c.isUefiCa2011 || c.isUefiCa2023) from rfl]
    ac_rfl

/-- The name of the last known OEM. -/
def oemNamed (certs : List CertInfo) : Option Bytes := ((certs.filter isKnownOem).getLast?).map oemName

end CertInfo

section Fields

theorem processPk_eq (certs : List CertInfo) (report : SecureBootChainReport) :
    processPk report certs = { report with
      pkCerts := certs
      pkIsKnownOem := report.pkIsKnownOem || certs.any CertInfo.isKnownOem
      pkOemName := (CertInfo.oemNamed certs).getD report.pkOemName } := by
  suffices h : ∀ r : SecureBootChainReport, certs.foldl (fun r c =>
      if c.isKnownOem then { r with pkIsKnownOem := true, pkOemName := c.oemName } else r) r =
        { r with
          pkIsKnownOem := r.pkIsKnownOem || certs.any CertInfo.isKnownOem
          pkOemName := (CertInfo.oemNamed certs).getD r.pkOemName } from h _
  induction certs with
  | nil => simp [CertInfo.oemNamed]
  | cons c certs ih =>
    intro r
    rw [List.foldl_cons, ih, List.any_cons, CertInfo.oemNamed, CertInfo.oemNamed]
    cases hc : c.isKnownOem with
    | false => simp [hc]
    | true =>
      rw [List.filter_cons_of_pos hc, List.getLast?_cons]
      cases (certs.filter CertInfo.isKnownOem).getLast? <;> simp

theorem processKek_eq (certs : List CertInfo) (report : SecureBootChainReport) :
    processKek report certs = { report with
      kekCerts := certs
      kekHasMicrosoft := report.kekHasMicrosoft || certs.any CertInfo.isMicrosoftCert } := by
  suffices h : ∀ r : SecureBootChainReport, certs.foldl (fun r c =>
      if c.isMicrosoftCert then { r with kekHasMicrosoft := true } else r) r =
        { r with kekHasMicrosoft := r.kekHasMicrosoft || certs.any CertInfo.isMicrosoftCert } from h _
  induction certs with
  | nil => simp
  | cons c certs ih =>
    intro r
    rw [List.foldl_cons, ih, List.any_cons]
    cases hc : c.isMicrosoftCert <;> simp

theorem processDb_eq (certs : List CertInfo) (report : SecureBootChainReport) :
    processDb report certs = { report with
      dbCerts := certs
      dbHasMicrosoftUefiCa2011 := report.dbHasMicrosoftUefiCa2011 || certs.any CertInfo.isUefiCa2011
      dbHasMicrosoftUefiCa2023 := report.dbHasMicrosoftUefiCa2023 || certs.any CertInfo.isUefiCa2023
      dbHasWindowsPca2011 := report.dbHasWindowsPca2011 || certs.any CertInfo.isWindowsPca2011 } := by
  suffices h : ∀ r : SecureBootChainReport, certs.foldl processDbCert r = { r with
      dbHasMicrosoftUefiCa2011 := r.dbHasMicrosoftUefiCa2011 || certs.any CertInfo.isUefiCa2011
      dbHasMicrosoftUefiCa2023 := r.dbHasMicrosoftUefiCa2023 || certs.any CertInfo.isUefiCa2023
      dbHasWindowsPca2011 := r.dbHasWindowsPca2011 || certs.any CertInfo.isWindowsPca2011 } from h _
  induction certs with
  | nil => simp
  | cons c certs ih =>
    intro r
    have hstep : processDbCert r c = { r with
        dbHasMicrosoftUefiCa2011 := r.dbHasMicrosoftUefiCa2011 || c.isUefiCa2011
        dbHasMicrosoftUefiCa2023 := r.dbHasMicrosoftUefiCa2023 || c.isUefiCa2023
        dbHasWindowsPca2011 := r.dbHasWindowsPca2011 || c.isWindowsPca2011 } := rfl
    rw [List.foldl_cons, ih, hstep]
    simp only [List.any_cons, Bool.or_assoc]

/-- What one key list assigns, field by field. -/
theorem processVariable_eq (report : SecureBootChainReport) (varName : Bytes) (certs : List CertInfo) :
    processVariable report varName certs = { report with
      pkCerts := (if varName = text "PK" then some certs else none).getD report.pkCerts
      pkIsKnownOem := report.pkIsKnownOem || (varName = text "PK" && certs.any CertInfo.isKnownOem)
      pkOemName := (if varName = text "PK" then CertInfo.oemNamed certs else none).getD report.pkOemName
      kekCerts := (if varName = text "KEK" then some certs else none).getD report.kekCerts
      kekHasMicrosoft := report.kekHasMicrosoft || (varName = text "KEK" && certs.any CertInfo.isMicrosoftCert)
      dbCerts := (if varName = text "db" then some certs else none).getD report.dbCerts
      dbHasMicrosoftUefiCa2011 := report.dbHasMicrosoftUefiCa2011 ||
        (varName = text "db" && certs.any CertInfo.isUefiCa2011)
      dbHasMicrosoftUefiCa2023 := report.dbHasMicrosoftUefiCa2023 ||
        (varName = text "db" && certs.any CertInfo.isUefiCa2023)
      dbHasWindowsPca2011 := report.dbHasWindowsPca2011 ||
        (varName = text "db" && certs.any CertInfo.isWindowsPca2011)
      dbxHashCount := (if varName = text "dbx" then some certs.length else none).getD report.dbxHashCount } := by
  unfold processVariable
  by_cases hPK : varName = text "PK"
  · subst hPK
    simp [processPk_eq]
  by_cases hKEK : varName = text "KEK"
  · subst hKEK
    simp [processKek_eq]
  by_cases hDb : varName = text "db"
  · subst hDb
    simp [processDb_eq]
  by_cases hDbx : varName = text "dbx"
  · subst hDbx
    simp
  · simp [hPK, hKEK, hDb, hDbx]

/-- What one key list adds to the fields the judgement reads. -/
private theorem processVariable_fields (report : SecureBootChainReport) (key : Bytes × List CertInfo) :
    let r := processVariable report key.1 key.2
    r.secureBootEnabled = report.secureBootEnabled ∧ (r.errors = report.errors ∧ r.warnings = report.warnings) ∧
    r.chainValid = report.chainValid ∧
    r.pkCerts = (if key.1 = text "PK" then some key.2 else none).getD report.pkCerts ∧
    r.kekHasMicrosoft = (report.kekHasMicrosoft ||
      (key.1 = text "KEK" && key.2.any CertInfo.isMicrosoftCert)) ∧
    (r.dbHasMicrosoftUefiCa2011 || r.dbHasMicrosoftUefiCa2023) =
      (report.dbHasMicrosoftUefiCa2011 || report.dbHasMicrosoftUefiCa2023 ||
        (key.1 = text "db" && key.2.any CertInfo.isUefiCa)) := by
  rw [processVariable_eq]
  refine ⟨rfl, ⟨rfl, rfl⟩, rfl, rfl, rfl, ?_⟩
  dsimp only
  rw [CertInfo.any_isUefiCa, Bool.and_or_distrib_left]
  ac_rfl

/-- The certificates of each list under a name. -/
def listsNamed (varName : Bytes) (keys : List (Bytes × List CertInfo)) : List (List CertInfo) :=
  keys.filterMap fun key => if key.1 = varName then some key.2 else none

/-- Some list under a name holds a certificate that meets the test. -/
def anyCert (varName : Bytes) (test : CertInfo → Bool) (keys : List (Bytes × List CertInfo)) : Bool :=
  keys.any fun key => key.1 = varName && key.2.any test

/-- What the collected lists leave in the fields the judgement reads. -/
theorem collect_fields (report : SecureBootChainReport) (keys : List (Bytes × List CertInfo)) :
    let r := collect report keys
    r.secureBootEnabled = report.secureBootEnabled ∧ (r.errors = report.errors ∧ r.warnings = report.warnings) ∧
    r.chainValid = report.chainValid ∧
    r.pkCerts = (listsNamed (text "PK") keys).getLast?.getD report.pkCerts ∧
    r.kekHasMicrosoft = (report.kekHasMicrosoft || anyCert (text "KEK") CertInfo.isMicrosoftCert keys) ∧
    (r.dbHasMicrosoftUefiCa2011 || r.dbHasMicrosoftUefiCa2023) =
      (report.dbHasMicrosoftUefiCa2011 || report.dbHasMicrosoftUefiCa2023 ||
        anyCert (text "db") CertInfo.isUefiCa keys) := by
  have hstep := processVariable_fields
  exact ⟨foldl_fixed (fun r key => (hstep r key).1) keys report,
    ⟨foldl_fixed (fun r key => (hstep r key).2.1.1) keys report,
      foldl_fixed (fun r key => (hstep r key).2.1.2) keys report⟩,
    foldl_fixed (fun r key => (hstep r key).2.2.1) keys report,
    foldl_last (fun r key => (hstep r key).2.2.2.1) keys report,
    foldl_or (fun r key => (hstep r key).2.2.2.2.1) keys report,
    foldl_or (g := fun r : SecureBootChainReport => r.dbHasMicrosoftUefiCa2011 || r.dbHasMicrosoftUefiCa2023)
      (fun r key => (hstep r key).2.2.2.2.2) keys report⟩

@[simp] theorem finalVerdict_secureBootEnabled (report : SecureBootChainReport) :
    (finalVerdict report).secureBootEnabled = report.secureBootEnabled := by
  unfold finalVerdict
  split <;> rfl

@[simp] theorem finalVerdict_chainValid (report : SecureBootChainReport) :
    (finalVerdict report).chainValid ↔ report.errors = [] := by
  unfold finalVerdict
  split <;> simp_all

@[simp] theorem judgeChain_secureBootEnabled (report : SecureBootChainReport) :
    (judgeChain report).secureBootEnabled = report.secureBootEnabled := by
  unfold judgeChain
  dsimp only
  split_ifs <;> simp

theorem judgeChain_chainValid_iff {report : SecureBootChainReport} (herrors : report.errors = [])
    (hvalid : report.chainValid = false) :
    (judgeChain report).chainValid ↔ report.secureBootEnabled ∧ report.pkCerts ≠ [] ∧ report.kekHasMicrosoft ∧
      (report.dbHasMicrosoftUefiCa2011 || report.dbHasMicrosoftUefiCa2023) := by
  unfold judgeChain
  dsimp only
  split_ifs <;> simp_all

end Fields

/-- A DRIVER_CONFIG record of the SecureBoot variable, holding one byte. -/
def secureBootRecord (pcrIndex : UInt32) (value : UInt8) : EventRecord where
  pcrIndex := pcrIndex
  eventType := EV_EFI_VARIABLE_DRIVER_CONFIG
  digests := []
  eventData := List.replicate 16 0 ++ leBytes 8 10 ++ leBytes 8 1 ++
    (text "SecureBoot").flatMap (fun ch => [ch, 0]) ++ [value]
  digests_le := EventRecord.noDigests_le
  eventData_lt := by
    rw [show ∀ s : Bytes, (s ++ [value]).length = s.length + 1 from fun s => List.length_append]
    decide +kernel

section Isolation
variable (parseDerCertificate : Bytes → CertInfo)

theorem conclude_secureBootEnabled (rs : List EventRecord) :
    (conclude parseDerCertificate rs).secureBootEnabled = (lastSetting rs = some true : Bool) := by
  rw [conclude, judgeChain_secureBootEnabled, (collect_fields _ _).1]

/-- The conclusion is a function of the PCR 7 records and the Secure Boot state. -/
theorem conclude_congr {rs₁ rs₂ : List EventRecord}
    (hpcr : rs₁.filter (fun r => r.pcrIndex = 7) = rs₂.filter (fun r => r.pcrIndex = 7)) :
    conclude parseDerCertificate rs₁ = conclude parseDerCertificate rs₂ ↔
      (lastSetting rs₁ = some true ↔ lastSetting rs₂ = some true) := by
  constructor
  · intro h
    have henabled := congrArg SecureBootChainReport.secureBootEnabled h
    rw [conclude_secureBootEnabled, conclude_secureBootEnabled] at henabled
    simpa using henabled
  · intro h
    rw [conclude, conclude, ← keyLists_filter, hpcr, keyLists_filter]
    simp only [h]

/-- SecureBoot variables measured into PCR 7 alone are all the state depends on. -/
theorem lastSetting_filter {rs : List EventRecord}
    (h : ∀ r ∈ rs, r.secureBootSetting ≠ none → r.pcrIndex = 7) :
    lastSetting (rs.filter (fun r => r.pcrIndex = 7)) = lastSetting rs := by
  rw [lastSetting, lastSetting, List.filterMap_filter]
  congr 1
  refine List.filterMap_congr fun r hr => ?_
  by_cases hpcr : r.pcrIndex = 7
  · simp [hpcr]
  · simp [hpcr, not_not.mp (mt (h r hr) hpcr)]

/-- Two logs with the same PCR 7 records get one report exactly when every read of them stays in
bounds and the last SecureBoot variables, of whatever PCR, agree. -/
theorem validateSecureBootChain_same_report_iff (h₁ h₂ : SpecIdHeader) (rs₁ rs₂ : List EventRecord)
    (hpcr : rs₁.filter (fun r => r.pcrIndex = 7) = rs₂.filter (fun r => r.pcrIndex = 7)) :
    (∃ report, validateSecureBootChain parseDerCertificate (h₁.write ++ EventRecord.code.writeAll rs₁) = .ok report ∧
      validateSecureBootChain parseDerCertificate (h₂.write ++ EventRecord.code.writeAll rs₂) = .ok report) ↔
    ReadsInBounds parseDerCertificate rs₁ ∧ ReadsInBounds parseDerCertificate rs₂ ∧
      (lastSetting rs₁ = some true ↔ lastSetting rs₂ = some true) := by
  simp only [validateSecureBootChain_eq_ok, SpecIdHeader.decodedRecords_writeAll]
  rw [← conclude_congr parseDerCertificate hpcr]
  constructor
  · rintro ⟨report, ⟨hreads₁, heq₁⟩, hreads₂, heq₂⟩
    exact ⟨hreads₁, hreads₂, heq₁.symm.trans heq₂⟩
  · rintro ⟨hreads₁, hreads₂, heq⟩
    exact ⟨_, ⟨hreads₁, rfl⟩, hreads₂, heq⟩

/-- A boot application measured into PCR 4. -/
def bootApplicationRecord : EventRecord where
  pcrIndex := 4
  eventType := EV_EFI_BOOT_SERVICES_APPLICATION
  digests := []
  eventData := []
  digests_le := EventRecord.noDigests_le
  eventData_lt := EventRecord.noEventData_lt

theorem validateSecureBootChain_same_report_with_application :
    ∃ report, validateSecureBootChain (fun _ => {})
        (emptyHeader.write ++ EventRecord.code.writeAll [secureBootRecord 7 1]) = .ok report ∧
      validateSecureBootChain (fun _ => {})
        (emptyHeader.write ++ EventRecord.code.writeAll [secureBootRecord 7 1, bootApplicationRecord]) = .ok report := by
  have hsb : (secureBootRecord 7 1).InBounds ∧ (secureBootRecord 7 1).ListsInBounds (fun _ => {}) :=
    ⟨by decide, fun _ => ⟨[], by decide +kernel⟩⟩
  have happ : bootApplicationRecord.InBounds ∧ bootApplicationRecord.ListsInBounds (fun _ => {}) :=
    ⟨by decide, fun h => absurd h (by decide)⟩
  refine (validateSecureBootChain_same_report_iff (fun _ => {}) emptyHeader emptyHeader [secureBootRecord 7 1]
    [secureBootRecord 7 1, bootApplicationRecord] rfl).mpr ⟨?_, ?_, ?_⟩
  · exact List.forall_mem_singleton.mpr hsb
  · exact List.forall_mem_cons.mpr ⟨hsb, List.forall_mem_singleton.mpr happ⟩
  · decide +kernel

/-- Logs with one report have one Secure Boot state. -/
theorem lastSetting_of_same_report {parseDerCertificate : Bytes → CertInfo} {h₁ h₂ : SpecIdHeader} {rs₁ rs₂ : List EventRecord}
    {report : SecureBootChainReport}
    (hreport₁ : validateSecureBootChain parseDerCertificate (h₁.write ++ EventRecord.code.writeAll rs₁) = .ok report)
    (hreport₂ : validateSecureBootChain parseDerCertificate (h₂.write ++ EventRecord.code.writeAll rs₂) = .ok report) :
    lastSetting rs₁ = some true ↔ lastSetting rs₂ = some true := by
  rw [validateSecureBootChain_eq_ok, SpecIdHeader.decodedRecords_writeAll] at hreport₁ hreport₂
  have hsame := congrArg SecureBootChainReport.secureBootEnabled (hreport₁.2.symm.trans hreport₂.2)
  rw [conclude_secureBootEnabled, conclude_secureBootEnabled] at hsame
  exact decide_eq_decide.mp hsame

/-- A SecureBoot variable measured into PCR 1 turns the conclusion of the same PCR 7 records. -/
theorem validateSecureBootChain_depends_on_other_pcrs :
    ¬ ∀ (parseDerCertificate : Bytes → CertInfo) (h₁ h₂ : SpecIdHeader) (rs₁ rs₂ : List EventRecord),
      rs₁.filter (fun r => r.pcrIndex = 7) = rs₂.filter (fun r => r.pcrIndex = 7) →
      ∃ report, validateSecureBootChain parseDerCertificate (h₁.write ++ EventRecord.code.writeAll rs₁) = .ok report ∧
        validateSecureBootChain parseDerCertificate (h₂.write ++ EventRecord.code.writeAll rs₂) = .ok report := by
  intro h
  obtain ⟨report, h₁, h₂⟩ := h (fun _ => {}) emptyHeader emptyHeader [secureBootRecord 7 0]
    [secureBootRecord 7 0, secureBootRecord 1 1] rfl
  exact absurd (lastSetting_of_same_report h₁ h₂) (by decide +kernel)

end Isolation

section Truncation
variable (parseDerCertificate : Bytes → CertInfo)

/-- The bytes the parser leaves undecoded. -/
def leftover (rawLog : Bytes) : Bytes := (EventRecord.code.readAll (afterHeader rawLog)).2

/-- The records alone make the analyser pass. -/
def Passes (rs : List EventRecord) : Prop :=
  (∀ r ∈ rs, r.InBounds) ∧ lastSetting rs = some true ∧ ∀ r ∈ rs, r.switchClass ≠ .unknown

/-- The records alone make the chain valid. -/
def ChainPasses (rs : List EventRecord) : Prop :=
  ReadsInBounds parseDerCertificate rs ∧ lastSetting rs = some true ∧
    (listsNamed (text "PK") (keyLists parseDerCertificate rs)).getLast?.getD [] ≠ [] ∧
    anyCert (text "KEK") CertInfo.isMicrosoftCert (keyLists parseDerCertificate rs) ∧
    anyCert (text "db") CertInfo.isUefiCa (keyLists parseDerCertificate rs)

theorem verdict_pass_iff (rawLog : Bytes) :
    (∃ a, parseAndAnalyzeEventLog rawLog = .ok a ∧ a.verdict = some .pass) ↔ Passes (decodedRecords rawLog) := by
  have hverdict : ∀ a, parseAndAnalyzeEventLog rawLog = .ok a → (a.verdict = some .pass ↔
      lastSetting (decodedRecords rawLog) = some true ∧
        ∀ r ∈ decodedRecords rawLog, r.switchClass ≠ .unknown) := by
    intro a ha
    obtain ⟨a₀, ⟨-, hsb, hunknown, hrevoked⟩, rfl⟩ := parse_analyses ha
    rw [generateVerdict_pass_iff, hsb, hunknown, hrevoked]
    have hon : (lastSetting (decodedRecords rawLog)).getD false = true ↔
        lastSetting (decodedRecords rawLog) = some true := by
      cases lastSetting (decodedRecords rawLog) <;> simp
    simp [hon, List.countP_eq_zero]
  constructor
  · rintro ⟨a, ha, hpass⟩
    exact ⟨inBounds_of_parse_ok ha, (hverdict a ha).mp hpass⟩
  · rintro ⟨hin, h⟩
    obtain ⟨a, ha⟩ := parse_ok_of_inBounds hin
    exact ⟨a, ha, (hverdict a ha).mpr h⟩

theorem chainValid_iff (rawLog : Bytes) :
    (∃ report, validateSecureBootChain parseDerCertificate rawLog = .ok report ∧ report.chainValid) ↔
      ChainPasses parseDerCertificate (decodedRecords rawLog) := by
  have hvalid : (conclude parseDerCertificate (decodedRecords rawLog)).chainValid ↔ _ :=
    judgeChain_chainValid_iff (collect_fields _ _).2.1.1 (collect_fields _ _).2.2.1
  obtain ⟨henabled, -, -, hpk, hkek, hdb⟩ := collect_fields
    { secureBootEnabled := lastSetting (decodedRecords rawLog) = some true }
    (keyLists parseDerCertificate (decodedRecords rawLog))
  rw [henabled, hpk, hkek, hdb] at hvalid
  simp only [validateSecureBootChain_eq_ok]
  constructor
  · rintro ⟨report, ⟨hreads, rfl⟩, h⟩
    exact ⟨hreads, by simpa using hvalid.mp h⟩
  · rintro ⟨hreads, h⟩
    exact ⟨_, ⟨hreads, rfl⟩, hvalid.mpr (by simpa using h)⟩

/-- A passing verdict or a valid chain covers the whole log. -/
def ConclusionCovers (rawLog : Bytes) : Prop :=
  (∀ a, parseAndAnalyzeEventLog rawLog = .ok a → a.verdict = some .pass → leftover rawLog = []) ∧
    ∀ report, validateSecureBootChain parseDerCertificate rawLog = .ok report → report.chainValid →
      leftover rawLog = []

/-- A passing conclusion covers the log exactly when nothing is left over, or the records in front
of what is left do not pass by themselves. -/
theorem conclusionCovers_iff (rawLog : Bytes) :
    ConclusionCovers parseDerCertificate rawLog ↔ leftover rawLog = [] ∨
      ¬ (Passes (decodedRecords rawLog) ∨ ChainPasses parseDerCertificate (decodedRecords rawLog)) := by
  rw [← verdict_pass_iff, ← chainValid_iff]
  unfold ConclusionCovers
  by_cases h : leftover rawLog = []
  · simp [h]
  · simp only [h, false_or, imp_false, not_or, not_exists, not_and]

/-- The start of a record whose one digest has an unknown algorithm. -/
def undecodableRecord : Bytes :=
  bytes32 0 ++ bytes32 EV_EFI_BOOT_SERVICES_APPLICATION ++ bytes32 1 ++ bytes16 0xFFFF

/-- Whatever follows an undecodable record is hidden behind a passing verdict. -/
theorem conclusion_hides_undecoded :
    ¬ ∀ (parseDerCertificate : Bytes → CertInfo) (rawLog : Bytes), ConclusionCovers parseDerCertificate rawLog := by
  intro h
  have hread : EventRecord.code.read undecodableRecord = none :=
    Option.isNone_iff_eq_none.mp (by decide)
  have hall : EventRecord.code.readAll (EventRecord.code.writeAll [secureBootRecord 7 1] ++ undecodableRecord) =
      ([secureBootRecord 7 1], undecodableRecord) := EventRecord.code.readAll_eq rfl hread
  obtain ⟨a, ha, hpass⟩ := (verdict_pass_iff (emptyHeader.write ++
      (EventRecord.code.writeAll [secureBootRecord 7 1] ++ undecodableRecord))).mpr (by
    rw [emptyHeader.decodedRecords_write, recordsFrom, hall]
    exact ⟨by decide, by decide +kernel, by decide⟩)
  have hleft := (h (fun _ => {}) _).1 a ha hpass
  rw [leftover, emptyHeader.afterHeader_write, hall] at hleft
  exact absurd hleft (by decide)

end Truncation
end RootHerald.Boot
