import RootHerald.Boot.ReportConsistency
import RootHerald.Boot.SecureBootState
import RootHerald.Boot.SignatureListDecoding

/-! The GUID of a variable in the Secure Boot conclusion. Name and data alone decide, so a variable of
another vendor that carries one of the five names counts like the real one. -/
namespace RootHerald.Boot
open Lib

section Namespaces

def EFI_GLOBAL_VARIABLE_GUID : Bytes :=
  [0x61, 0xDF, 0xE4, 0x8B, 0xCA, 0x93, 0xD2, 0x11, 0xAA, 0x0D, 0x00, 0xE0, 0x98, 0x03, 0x2B, 0x8C]

def EFI_IMAGE_SECURITY_DATABASE_GUID : Bytes :=
  [0xCB, 0xB2, 0x19, 0xD7, 0x3A, 0x3D, 0x96, 0x45, 0xA3, 0xBC, 0xDA, 0xD0, 0x0E, 0x67, 0x65, 0x6F]

/-- The namespace of a Secure Boot variable. -/
def namespaceGuid (name : List UInt16) : Option Bytes :=
  if name = asUnits (text "SecureBoot") ∨ name = asUnits (text "PK") ∨ name = asUnits (text "KEK") then
    some EFI_GLOBAL_VARIABLE_GUID
  else if name = asUnits (text "db") ∨ name = asUnits (text "dbx") then some EFI_IMAGE_SECURITY_DATABASE_GUID
  else none

/-- A variable event with the name of a Secure Boot variable and the GUID of another vendor. -/
def EventRecord.IsForeign (r : EventRecord) : Prop :=
  IsVariableEvent r.eventType ∧
    ∃ g ∈ (uefiName r.eventData).bind namespaceGuid, r.eventData.take 16 ≠ g

instance (r : EventRecord) : Decidable r.IsForeign := inferInstanceAs (Decidable (_ ∧ _))

/-- The records that are not foreign. -/
def nativeRecords (rs : List EventRecord) : List EventRecord := rs.filter fun r => ¬ r.IsForeign

end Namespaces

section Summary

/-- What the lists of the key variables come to. -/
structure KeySummary where
  pkCerts : List CertInfo
  pkIsKnownOem : Bool
  pkOemName : Bytes
  kekCerts : List CertInfo
  kekHasMicrosoft : Bool
  dbCerts : List CertInfo
  dbHasMicrosoftUefiCa2011 : Bool
  dbHasMicrosoftUefiCa2023 : Bool
  dbHasWindowsPca2011 : Bool
  dbxHashCount : Nat
  deriving DecidableEq

/-- The last list of each variable, and what any of its lists holds. -/
def keySummary (keys : List (Bytes × List CertInfo)) : KeySummary where
  pkCerts := (listsNamed (text "PK") keys).getLast?.getD []
  pkIsKnownOem := anyCert (text "PK") CertInfo.isKnownOem keys
  pkOemName := ((listsNamed (text "PK") keys).filterMap CertInfo.oemNamed).getLast?.getD []
  kekCerts := (listsNamed (text "KEK") keys).getLast?.getD []
  kekHasMicrosoft := anyCert (text "KEK") CertInfo.isMicrosoftCert keys
  dbCerts := (listsNamed (text "db") keys).getLast?.getD []
  dbHasMicrosoftUefiCa2011 := anyCert (text "db") CertInfo.isUefiCa2011 keys
  dbHasMicrosoftUefiCa2023 := anyCert (text "db") CertInfo.isUefiCa2023 keys
  dbHasWindowsPca2011 := anyCert (text "db") CertInfo.isWindowsPca2011 keys
  dbxHashCount := ((listsNamed (text "dbx") keys).getLast?.map List.length).getD 0

/-- The summary of a report's own fields. -/
def SecureBootChainReport.summary (report : SecureBootChainReport) : KeySummary :=
  ⟨report.pkCerts, report.pkIsKnownOem, report.pkOemName, report.kekCerts, report.kekHasMicrosoft, report.dbCerts,
    report.dbHasMicrosoftUefiCa2011, report.dbHasMicrosoftUefiCa2023, report.dbHasWindowsPca2011, report.dbxHashCount⟩

private theorem processVariable_rest (report : SecureBootChainReport) (key : Bytes × List CertInfo) :
    let r := processVariable report key.1 key.2
    r.pkOemName = (if key.1 = text "PK" then CertInfo.oemNamed key.2 else none).getD report.pkOemName ∧
    r.dbxHashCount = (if key.1 = text "dbx" then some key.2.length else none).getD report.dbxHashCount ∧
    r.verdict = report.verdict := by
  rw [processVariable_eq]
  exact ⟨rfl, rfl, rfl⟩

private theorem filterMap_listsNamed {β : Type} (varName : Bytes) (f : List CertInfo → Option β)
    (keys : List (Bytes × List CertInfo)) :
    (keys.filterMap fun key => if key.1 = varName then f key.2 else none) = (listsNamed varName keys).filterMap f := by
  rw [listsNamed, List.filterMap_filterMap]
  congr 1
  funext key
  split_ifs <;> rfl

/-- The collected report has the state, the summary of the lists and nothing else. -/
theorem collect_eq (enabled : Bool) (keys : List (Bytes × List CertInfo)) :
    let r := collect { secureBootEnabled := enabled } keys
    r.secureBootEnabled = enabled ∧ r.summary = keySummary keys ∧ r.chainValid = false ∧ r.verdict = [] ∧
      r.warnings = [] ∧ r.errors = [] := by
  have hstep := processVariable_rest
  obtain ⟨hpk, hkekCerts, hdbCerts, h2011, h2023, hpca⟩ := collect_lists { secureBootEnabled := enabled } keys
  obtain ⟨hsb, ⟨herrors, hwarnings⟩, hvalid, hpkCerts, hkek, -⟩ := collect_fields { secureBootEnabled := enabled } keys
  have hoem := foldl_last (fun r key => (hstep r key).1) keys { secureBootEnabled := enabled }
  have hdbx := foldl_last (fun r key => (hstep r key).2.1) keys { secureBootEnabled := enabled }
  have hverdict := foldl_fixed (fun r key => (hstep r key).2.2) keys { secureBootEnabled := enabled }
  rw [filterMap_listsNamed _ CertInfo.oemNamed] at hoem
  rw [filterMap_listsNamed _ (fun certs => some certs.length)] at hdbx
  rw [Bool.false_or] at hpk hkek h2011 h2023 hpca
  refine ⟨hsb, ?_, hvalid, hverdict, hwarnings, herrors⟩
  have hcount : (listsNamed (text "dbx") keys).filterMap (fun certs => some certs.length) =
      (listsNamed (text "dbx") keys).map List.length := congrFun List.filterMap_eq_map' _
  rw [hcount, List.getLast?_map] at hdbx
  change (collect _ keys).pkOemName = _ at hoem
  change (collect _ keys).dbxHashCount = _ at hdbx
  rw [SecureBootChainReport.summary, keySummary, hpkCerts, hpk, hoem, hkekCerts, hkek, hdbCerts, h2011, h2023, hpca,
    hdbx]

/-- The state and the summary are all a report is made of, and all of both is in it. -/
theorem judgeChain_collect_inj {b₁ b₂ : Bool} {keys₁ keys₂ : List (Bytes × List CertInfo)} :
    judgeChain (collect { secureBootEnabled := b₁ } keys₁) = judgeChain (collect { secureBootEnabled := b₂ } keys₂) ↔
      b₁ = b₂ ∧ keySummary keys₁ = keySummary keys₂ := by
  obtain ⟨hsb₁, hsum₁, hvalid₁, hverdict₁, hwarnings₁, herrors₁⟩ := collect_eq b₁ keys₁
  obtain ⟨hsb₂, hsum₂, hvalid₂, hverdict₂, hwarnings₂, herrors₂⟩ := collect_eq b₂ keys₂
  constructor
  · intro h
    have hsb := congrArg SecureBootChainReport.secureBootEnabled h
    have hsum := congrArg SecureBootChainReport.summary h
    rw [judgeChain_secureBootEnabled, judgeChain_secureBootEnabled, hsb₁, hsb₂] at hsb
    rw [judgeChain_eq (collect { secureBootEnabled := b₁ } keys₁),
      judgeChain_eq (collect { secureBootEnabled := b₂ } keys₂)] at hsum
    refine ⟨hsb, ?_⟩
    rw [← hsum₁, ← hsum₂]
    exact hsum
  · rintro ⟨rfl, hsum⟩
    rw [← hsum₁, ← hsum₂] at hsum
    congr 1
    generalize collect { secureBootEnabled := b₁ } keys₁ = r₁ at *
    generalize collect { secureBootEnabled := b₁ } keys₂ = r₂ at *
    cases r₁
    cases r₂
    simp only [SecureBootChainReport.summary, KeySummary.mk.injEq] at hsum
    simp_all

end Summary

section Vendors
variable (parseDerCertificate : Bytes → CertInfo)

/-- Two logs that differ in foreign variables alone get one report. -/
def SameReport (h : SpecIdHeader) (rs₁ rs₂ : List EventRecord) : Prop :=
  nativeRecords rs₁ = nativeRecords rs₂ → ∃ report,
    validateSecureBootChain parseDerCertificate (h.write ++ EventRecord.code.writeAll rs₁) = .ok report ∧
    validateSecureBootChain parseDerCertificate (h.write ++ EventRecord.code.writeAll rs₂) = .ok report

/-- Whatever the GUIDs: the last SecureBoot variables agree, and so do the lists of the key variables. -/
def SameKeys (rs₁ rs₂ : List EventRecord) : Prop :=
  (lastSetting rs₁ = some true ↔ lastSetting rs₂ = some true) ∧
    keySummary (keyLists parseDerCertificate rs₁) = keySummary (keyLists parseDerCertificate rs₂)

theorem readsInBounds_of_wellFormed {rs : List EventRecord} (h : ∀ r ∈ rs, r.WellFormedVariable) :
    ReadsInBounds parseDerCertificate rs := by
  refine fun r hr => ⟨(h r hr).inBounds, fun hkey => ?_⟩
  obtain ⟨v, hv⟩ := h r hr (hkey.2.imp_right .inl)
  rw [hv, parseEfiSignatureList_write parseDerCertificate (VariableData.length_lt hv)]
  exact signatureListLoop_ok parseDerCertificate le_rfl []

end Vendors

/-- A SecureBoot variable under a GUID. -/
def secureBootVariable (guid : Bytes) (hguid : guid.length = 16) (value : UInt8) : VariableData :=
  ⟨guid, asUnits (text "SecureBoot"), [value], hguid⟩

theorem secureBootVariable_lt (guid : Bytes) (hguid : guid.length = 16) (value : UInt8) :
    (secureBootVariable guid hguid value).write.length < 2 ^ 32 := by
  have hname : (asUnits (text "SecureBoot")).length = 10 := by decide
  rw [VariableData.write_length]
  change 32 + 2 * (asUnits (text "SecureBoot")).length + 1 < 2 ^ 32
  omega

/-- The firmware's SecureBoot variable, off, and behind it another vendor's. -/
def secureBootTwice (value : UInt8) : List EventRecord :=
  [variableRecord 7 (secureBootVariable EFI_GLOBAL_VARIABLE_GUID rfl 0) (secureBootVariable_lt _ _ _),
    variableRecord 7 (secureBootVariable (List.replicate 16 0) zeroGuid_length value) (secureBootVariable_lt _ _ _)]

theorem secureBootTwice_wellFormed (value : UInt8) : ∀ r ∈ secureBootTwice value, r.WellFormedVariable := by
  intro r hr
  simp only [secureBootTwice, List.mem_cons, List.not_mem_nil, or_false] at hr
  rcases hr with rfl | rfl
  · exact fun _ => ⟨_, rfl⟩
  · exact fun _ => ⟨_, rfl⟩

private theorem native_secureBootTwice : nativeRecords (secureBootTwice 0) = nativeRecords (secureBootTwice 1) := by
  simp only [nativeRecords, secureBootTwice]
  rw [List.filter_cons_of_pos (by decide), List.filter_cons_of_neg (by decide),
    List.filter_cons_of_pos (by decide), List.filter_cons_of_neg (by decide)]

end RootHerald.Boot
