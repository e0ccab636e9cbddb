import RootHerald.Boot.SecureBootConclusion

/-! Whether the flags of the report agree with the certificate lists beside them: every list is that
of its variable's last event, every flag that of all its events. -/
namespace RootHerald.Boot
open Lib

section Consistency

/-- Each flag says what the list beside it holds, and a valid chain rests on the lists reported. -/
structure SecureBootChainReport.Consistent (report : SecureBootChainReport) : Prop where
  pk : report.pkIsKnownOem ↔ ∃ c ∈ report.pkCerts, c.isKnownOem
  pkName : report.pkIsKnownOem → ∃ c ∈ report.pkCerts, c.isKnownOem ∧ c.oemName = report.pkOemName
  kek : report.kekHasMicrosoft ↔ ∃ c ∈ report.kekCerts, c.isMicrosoftCert
  uefiCa2011 : report.dbHasMicrosoftUefiCa2011 ↔ ∃ c ∈ report.dbCerts, c.isUefiCa2011
  uefiCa2023 : report.dbHasMicrosoftUefiCa2023 ↔ ∃ c ∈ report.dbCerts, c.isUefiCa2023
  windowsPca : report.dbHasWindowsPca2011 ↔ ∃ c ∈ report.dbCerts, c.isWindowsPca2011
  valid : report.chainValid → report.pkCerts ≠ [] ∧ (∃ c ∈ report.kekCerts, c.isMicrosoftCert) ∧
    ∃ c ∈ report.dbCerts, c.isUefiCa

/-- A test that some list under the name meets, the last list under the name meets. -/
def LastDecides (varName : Bytes) (test : CertInfo → Bool) (keys : List (Bytes × List CertInfo)) : Prop :=
  anyCert varName test keys → ((listsNamed varName keys).getLast?.getD []).any test

/-- The last list of each variable meets every test that an earlier one met. -/
structure LastListsDecide (keys : List (Bytes × List CertInfo)) : Prop where
  pk : LastDecides (text "PK") CertInfo.isKnownOem keys
  kek : LastDecides (text "KEK") CertInfo.isMicrosoftCert keys
  uefiCa2011 : LastDecides (text "db") CertInfo.isUefiCa2011 keys
  uefiCa2023 : LastDecides (text "db") CertInfo.isUefiCa2023 keys
  windowsPca : LastDecides (text "db") CertInfo.isWindowsPca2011 keys

/-- The last list under a name is one of them. -/
theorem anyCert_of_last {varName : Bytes} {test : CertInfo → Bool} {keys : List (Bytes × List CertInfo)}
    (h : ((listsNamed varName keys).getLast?.getD []).any test) : anyCert varName test keys := by
  cases hlast : (listsNamed varName keys).getLast? with
  | none =>
    rw [hlast] at h
    cases h
  | some certs =>
    rw [hlast] at h
    obtain ⟨key, hkey, heq⟩ := List.mem_filterMap.mp (List.mem_of_getLast? hlast)
    obtain ⟨hname, rfl⟩ := Option.ite_none_right_eq_some.mp heq |>.imp_right Option.some.inj
    exact List.any_eq_true.mpr ⟨key, hkey, by simpa [hname] using h⟩

theorem lastDecides_iff {varName : Bytes} {test : CertInfo → Bool} {keys : List (Bytes × List CertInfo)} :
    LastDecides varName test keys ↔
      (anyCert varName test keys ↔ ∃ c ∈ (listsNamed varName keys).getLast?.getD [], test c) := by
  rw [← List.any_eq_true]
  exact ⟨fun h => ⟨h, anyCert_of_last⟩, Iff.mp⟩

section Collected
variable {report : SecureBootChainReport} {keys : List (Bytes × List CertInfo)}

/-- What one event of a key variable assigns. -/
private theorem processVariable_lists (report : SecureBootChainReport) (key : Bytes × List CertInfo) :
    let r := processVariable report key.1 key.2
    r.pkIsKnownOem = (report.pkIsKnownOem || (key.1 = text "PK" && key.2.any CertInfo.isKnownOem)) ∧
    r.kekCerts = (if key.1 = text "KEK" then some key.2 else none).getD report.kekCerts ∧
    r.dbCerts = (if key.1 = text "db" then some key.2 else none).getD report.dbCerts ∧
    r.dbHasMicrosoftUefiCa2011 = (report.dbHasMicrosoftUefiCa2011 ||
      (key.1 = text "db" && key.2.any CertInfo.isUefiCa2011)) ∧
    r.dbHasMicrosoftUefiCa2023 = (report.dbHasMicrosoftUefiCa2023 ||
      (key.1 = text "db" && key.2.any CertInfo.isUefiCa2023)) ∧
    r.dbHasWindowsPca2011 = (report.dbHasWindowsPca2011 ||
      (key.1 = text "db" && key.2.any CertInfo.isWindowsPca2011)) := by
  rw [processVariable_eq]
  exact ⟨rfl, rfl, rfl, rfl, rfl, rfl⟩

/-- The lists and flags of the collected report, variable by variable. -/
theorem collect_lists (report : SecureBootChainReport) (keys : List (Bytes × List CertInfo)) :
    let r := collect report keys
    r.pkIsKnownOem = (report.pkIsKnownOem || anyCert (text "PK") CertInfo.isKnownOem keys) ∧
    r.kekCerts = (listsNamed (text "KEK") keys).getLast?.getD report.kekCerts ∧
    r.dbCerts = (listsNamed (text "db") keys).getLast?.getD report.dbCerts ∧
    r.dbHasMicrosoftUefiCa2011 = (report.dbHasMicrosoftUefiCa2011 || anyCert (text "db") CertInfo.isUefiCa2011 keys) ∧
    r.dbHasMicrosoftUefiCa2023 = (report.dbHasMicrosoftUefiCa2023 || anyCert (text "db") CertInfo.isUefiCa2023 keys) ∧
    r.dbHasWindowsPca2011 = (report.dbHasWindowsPca2011 || anyCert (text "db") CertInfo.isWindowsPca2011 keys) := by
  have hstep := processVariable_lists
  exact ⟨foldl_or (fun r key => (hstep r key).1) keys report,
    foldl_last (fun r key => (hstep r key).2.1) keys report,
    foldl_last (fun r key => (hstep r key).2.2.1) keys report,
    foldl_or (fun r key => (hstep r key).2.2.2.1) keys report,
    foldl_or (fun r key => (hstep r key).2.2.2.2.1) keys report,
    foldl_or (fun r key => (hstep r key).2.2.2.2.2) keys report⟩

/-- A known OEM in the Platform Key list gave the name. -/
def NamesOem (report : SecureBootChainReport) : Prop :=
  report.pkCerts.any CertInfo.isKnownOem → ∃ c ∈ report.pkCerts, c.isKnownOem ∧ c.oemName = report.pkOemName

private theorem processPk_namesOem (report : SecureBootChainReport) (certs : List CertInfo) :
    NamesOem (processPk report certs) := by
  rw [processPk_eq]
  intro hany
  obtain ⟨c, hc, hknown⟩ := List.any_eq_true.mp hany
  obtain ⟨last, hlast⟩ : ∃ last, (certs.filter CertInfo.isKnownOem).getLast? = some last :=
    Option.isSome_iff_exists.mp (List.getLast?_isSome.mpr (List.ne_nil_of_mem (List.mem_filter.mpr ⟨hc, hknown⟩)))
  obtain ⟨hmem, hlastKnown⟩ := List.mem_filter.mp (List.mem_of_getLast? hlast)
  exact ⟨last, hmem, hlastKnown, by simp [CertInfo.oemNamed, hlast]⟩

private theorem processVariable_namesOem (h : NamesOem report) (key : Bytes × List CertInfo) :
    NamesOem (processVariable report key.1 key.2) := by
  rw [processVariable]
  split_ifs
  · exact processPk_namesOem report key.2
  · rw [processKek_eq]
    exact h
  · rw [processDb_eq]
    exact h
  · exact h
  · exact h

theorem collect_namesOem (h : NamesOem report) : NamesOem (collect report keys) := by
  induction keys generalizing report with
  | nil => exact h
  | cons key keys ih => exact ih (processVariable_namesOem h key)

end Collected

private theorem finalVerdict_eq (report : SecureBootChainReport) : finalVerdict report = { report with
    chainValid := (finalVerdict report).chainValid
    verdict := (finalVerdict report).verdict } := by
  unfold finalVerdict
  split <;> rfl

/-- The judgement leaves the lists and flags alone. -/
theorem judgeChain_eq (report : SecureBootChainReport) : judgeChain report = { report with
    chainValid := (judgeChain report).chainValid
    verdict := (judgeChain report).verdict
    warnings := (judgeChain report).warnings
    errors := (judgeChain report).errors } := by
  unfold judgeChain
  dsimp only
  by_cases henabled : report.secureBootEnabled
  · rw [if_neg (not_not_intro henabled)]
    by_cases hpk : report.pkCerts = []
    · rw [if_pos hpk]
    · rw [if_neg hpk]
      split_ifs <;> rw [finalVerdict_eq]
  · rw [if_pos henabled]

/-- On collected lists the report is consistent exactly when the last lists decide. -/
theorem judgeChain_consistent_iff (enabled : Bool) (keys : List (Bytes × List CertInfo)) :
    (judgeChain (collect { secureBootEnabled := enabled } keys)).Consistent ↔ LastListsDecide keys := by
  obtain ⟨hpk, hkekCerts, hdbCerts, h2011, h2023, hpca⟩ := collect_lists { secureBootEnabled := enabled } keys
  obtain ⟨-, ⟨herrors, -⟩, hvalid, hpkCerts, hkek, -⟩ := collect_fields { secureBootEnabled := enabled } keys
  have hchain := judgeChain_chainValid_iff herrors hvalid
  have hname : NamesOem (collect { secureBootEnabled := enabled } keys) := collect_namesOem fun h => by cases h
  rw [judgeChain_eq]
  rw [Bool.false_or] at hpk hkek h2011 h2023 hpca
  constructor
  · intro h
    have hpkIff := h.pk
    have hkekIff := h.kek
    have h2011Iff := h.uefiCa2011
    have h2023Iff := h.uefiCa2023
    have hpcaIff := h.windowsPca
    simp only [hpk, hkek, h2011, h2023, hpca, hpkCerts, hkekCerts, hdbCerts] at hpkIff hkekIff h2011Iff h2023Iff hpcaIff
    exact ⟨lastDecides_iff.2 hpkIff, lastDecides_iff.2 hkekIff, lastDecides_iff.2 h2011Iff,
      lastDecides_iff.2 h2023Iff, lastDecides_iff.2 hpcaIff⟩
  · intro h
    have hpkIff := lastDecides_iff.1 h.pk
    have hkekIff := lastDecides_iff.1 h.kek
    have h2011Iff := lastDecides_iff.1 h.uefiCa2011
    have h2023Iff := lastDecides_iff.1 h.uefiCa2023
    have hpcaIff := lastDecides_iff.1 h.windowsPca
    rw [← hpk, ← hpkCerts] at hpkIff
    rw [← hkek, ← hkekCerts] at hkekIff
    rw [← h2011, ← hdbCerts] at h2011Iff
    rw [← h2023, ← hdbCerts] at h2023Iff
    rw [← hpca, ← hdbCerts] at hpcaIff
    refine ⟨hpkIff, fun hknown => hname (List.any_eq_true.mpr (hpkIff.mp hknown)), hkekIff, h2011Iff, h2023Iff, hpcaIff,
      fun hchainValid => ?_⟩
    obtain ⟨-, hne, hmicrosoft, hca⟩ := hchain.mp hchainValid
    refine ⟨hne, hkekIff.mp hmicrosoft, ?_⟩
    rcases (Bool.or_eq_true _ _).mp hca with hca | hca
    · obtain ⟨c, hc, hcert⟩ := h2011Iff.mp hca
      exact ⟨c, hc, (Bool.or_eq_true _ _).mpr (.inl hcert)⟩
    · obtain ⟨c, hc, hcert⟩ := h2023Iff.mp hca
      exact ⟨c, hc, (Bool.or_eq_true _ _).mpr (.inr hcert)⟩

variable (parseDerCertificate : Bytes → CertInfo)

/-- Whatever report the validator returns on a log is consistent exactly when no earlier list of a key
variable meets a test that the last one fails. -/
theorem report_consistent_iff (rawLog : Bytes) :
    (∀ report, validateSecureBootChain parseDerCertificate rawLog = .ok report → report.Consistent) ↔
      (ReadsInBounds parseDerCertificate (decodedRecords rawLog) →
        LastListsDecide (keyLists parseDerCertificate (decodedRecords rawLog))) := by
  simp only [validateSecureBootChain_eq_ok]
  constructor
  · intro h hreads
    exact (judgeChain_consistent_iff _ _).mp (h _ ⟨hreads, rfl⟩)
  · rintro h report ⟨hreads, rfl⟩
    exact (judgeChain_consistent_iff _ _).mpr (h hreads)

end Consistency

section Sample

/-- A certificate of CN=Microsoft. -/
def microsoftDer : Bytes :=
  [0x30, 0x81, 0x8f, 0x30, 0x7a, 0x02, 0x01, 0x01, 0x30, 0x0d, 0x06, 0x09, 0x2a, 0x86, 0x48, 0x86,
  0xf7, 0x0d, 0x01, 0x01, 0x0b, 0x05, 0x00, 0x30, 0x14, 0x31, 0x12, 0x30, 0x10, 0x06, 0x03, 0x55,
  0x04, 0x03, 0x0c, 0x09, 0x4d, 0x69, 0x63, 0x72, 0x6f, 0x73, 0x6f, 0x66, 0x74, 0x30, 0x1e, 0x17,
  0x0d, 0x31, 0x31, 0x30, 0x31, 0x30, 0x31, 0x30, 0x30, 0x30, 0x30, 0x30, 0x30, 0x5a, 0x17, 0x0d,
  0x32, 0x36, 0x30, 0x31, 0x30, 0x31, 0x30, 0x30, 0x30, 0x30, 0x30, 0x30, 0x5a, 0x30, 0x14, 0x31,
  0x12, 0x30, 0x10, 0x06, 0x03, 0x55, 0x04, 0x03, 0x0c, 0x09, 0x4d, 0x69, 0x63, 0x72, 0x6f, 0x73,
  0x6f, 0x66, 0x74, 0x30, 0x1a, 0x30, 0x0d, 0x06, 0x09, 0x2a, 0x86, 0x48, 0x86, 0xf7, 0x0d, 0x01,
  0x01, 0x01, 0x05, 0x00, 0x03, 0x09, 0x00, 0x30, 0x06, 0x02, 0x01, 0x01, 0x02, 0x01, 0x03, 0x30,
  0x0d, 0x06, 0x09, 0x2a, 0x86, 0x48, 0x86, 0xf7, 0x0d, 0x01, 0x01, 0x0b, 0x05, 0x00, 0x03, 0x02,
  0x00, 0x00]

/-- The decoder, on that certificate. -/
def decodeMicrosoft (der : Bytes) : CertInfo :=
  if der = microsoftDer then
    { subject := text "CN=Microsoft", issuer := text "CN=Microsoft", isMicrosoftCert := true, isKnownOem := true
      oemName := text "Microsoft" }
  else {}

/-- A KEK variable with the list given. -/
def kekData (list : Bytes) : Bytes :=
  List.replicate 16 0 ++ leBytes 8 3 ++ leBytes 8 list.length ++ (text "KEK").flatMap (fun ch => [ch, 0]) ++ list

/-- One X.509 list of one certificate. -/
def certList (der : Bytes) : Bytes :=
  EFI_CERT_X509_GUID ++ leBytes 4 (44 + der.length) ++ leBytes 4 0 ++ leBytes 4 (16 + der.length) ++
    List.replicate 16 0 ++ der

private theorem kekData_lt : (kekData (certList microsoftDer)).length < 2 ^ 32 := by decide +kernel

private theorem emptyKekData_lt : (kekData []).length < 2 ^ 32 := by decide

def kekRecord : EventRecord where
  pcrIndex := 7
  eventType := EV_EFI_VARIABLE_DRIVER_CONFIG
  digests := []
  eventData := kekData (certList microsoftDer)
  digests_le := EventRecord.noDigests_le
  eventData_lt := kekData_lt

def emptyKekRecord : EventRecord where
  pcrIndex := 7
  eventType := EV_EFI_VARIABLE_DRIVER_CONFIG
  digests := []
  eventData := kekData []
  digests_le := EventRecord.noDigests_le
  eventData_lt := emptyKekData_lt

/-- A second, empty KEK measurement leaves the flag of the first beside an empty list. -/
theorem report_keeps_stale_flag : ¬ ∀ (parseDerCertificate : Bytes → CertInfo) (rawLog : Bytes) report,
    validateSecureBootChain parseDerCertificate rawLog = .ok report → report.Consistent := by
  intro h
  have hfirst : kekRecord.InBounds ∧ kekRecord.ListsInBounds decodeMicrosoft :=
    ⟨by decide +kernel, fun _ => ⟨[decodeMicrosoft microsoftDer], by decide +kernel⟩⟩
  have hsecond : emptyKekRecord.InBounds ∧ emptyKekRecord.ListsInBounds decodeMicrosoft :=
    ⟨by decide, fun _ => ⟨[], by decide +kernel⟩⟩
  have hconsistent := h decodeMicrosoft (emptyHeader.write ++ EventRecord.code.writeAll [kekRecord, emptyKekRecord])
    (conclude decodeMicrosoft [kekRecord, emptyKekRecord]) (by
      rw [validateSecureBootChain_eq_ok, SpecIdHeader.decodedRecords_writeAll]
      exact ⟨List.forall_mem_cons.mpr ⟨hfirst, List.forall_mem_singleton.mpr hsecond⟩, rfl⟩)
  have hdecides := ((judgeChain_consistent_iff _ _).mp hconsistent).kek
  exact absurd (hdecides (by decide +kernel)) (by decide +kernel)

end Sample
end RootHerald.Boot
