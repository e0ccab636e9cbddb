import RootHerald.Boot.EventLogRun
import RootHerald.Boot.SecureBootValidator
import RootHerald.Lib.Folds
import Mathlib.Data.List.Forall2

/-! The validator as a function of the decoded records: the key lists of PCR 7 are collected, then
judged with the analyser's Secure Boot state. -/
namespace RootHerald.Boot
open Lib

namespace EventRecord

/-- The records whose event data the validator reads. -/
def IsKeyEvent (r : EventRecord) : Prop :=
  r.pcrIndex = 7 ∧ (r.eventType = EV_EFI_VARIABLE_DRIVER_CONFIG ∨ r.eventType = EV_EFI_VARIABLE_BOOT)

instance (r : EventRecord) : Decidable r.IsKeyEvent := inferInstanceAs (Decidable (_ ∧ (_ ∨ _)))

variable (parseDerCertificate : Bytes → CertInfo)

/-- The signature lists of the record, where the validator reads them, lie inside its event data. -/
def ListsInBounds (r : EventRecord) : Prop :=
  r.IsKeyEvent → ∃ certs, parseEfiSignatureList parseDerCertificate r.eventData = .ok certs

/-- The variable's name and certificates, when the validator reads the record. -/
def keyList (r : EventRecord) : Option (Bytes × List CertInfo) :=
  if r.IsKeyEvent then
    match extractVarName r.eventData, parseEfiSignatureList parseDerCertificate r.eventData with
    | .ok varName, .ok certs => some (varName, certs)
    | _, _ => none
  else none

theorem keyList_eq_some {r : EventRecord} {key : Bytes × List CertInfo} :
    r.keyList parseDerCertificate = some key ↔ r.IsKeyEvent ∧ extractVarName r.eventData = .ok key.1 ∧
      parseEfiSignatureList parseDerCertificate r.eventData = .ok key.2 := by
  rw [keyList]
  constructor
  · intro h
    split_ifs at h with hevent
    split at h
    next varName certs hname hcerts =>
      obtain rfl := Option.some.inj h
      exact ⟨hevent, hname, hcerts⟩
    next => cases h
  · rintro ⟨hevent, hname, hcerts⟩
    rw [if_pos hevent, hname, hcerts]

end EventRecord

section Collect
variable (parseDerCertificate : Bytes → CertInfo)

/-- The key lists of the records, in order. -/
def keyLists (rs : List EventRecord) : List (Bytes × List CertInfo) :=
  rs.filterMap (EventRecord.keyList parseDerCertificate)

private theorem keyLists_cons (r : EventRecord) (rs : List EventRecord) :
    keyLists parseDerCertificate (r :: rs) =
      (r.keyList parseDerCertificate).toList ++ keyLists parseDerCertificate rs := by
  unfold keyLists
  cases h : r.keyList parseDerCertificate with
  | none => rw [List.filterMap_cons_none h]; rfl
  | some key => rw [List.filterMap_cons_some h]; rfl

/-- Only PCR 7 holds key lists. -/
theorem keyLists_filter (rs : List EventRecord) :
    keyLists parseDerCertificate (rs.filter (fun r => r.pcrIndex = 7)) = keyLists parseDerCertificate rs := by
  induction rs with
  | nil => rfl
  | cons r rs ih =>
    by_cases h : r.pcrIndex = 7
    · rw [List.filter_cons_of_pos (by simpa using h), keyLists_cons, ih, keyLists_cons]
    · have hnone : r.keyList parseDerCertificate = none := if_neg fun hk => h hk.1
      rw [List.filter_cons_of_neg (by simpa using h), ih, keyLists_cons, hnone]
      rfl

/-- The report the validator judges. -/
def collect (report : SecureBootChainReport) (keys : List (Bytes × List CertInfo)) : SecureBootChainReport :=
  keys.foldl (fun report key => processVariable report key.1 key.2) report

private theorem processEntry_eq (report : SecureBootChainReport) (entry : EventLogEntry) :
    processEntry parseDerCertificate report entry =
      if entry.pcrIndex = 7 ∧
          (entry.eventType = EV_EFI_VARIABLE_DRIVER_CONFIG ∨ entry.eventType = EV_EFI_VARIABLE_BOOT) then do
        let varName ← extractVarName entry.eventData
        let certs ← parseEfiSignatureList parseDerCertificate entry.eventData
        return processVariable report varName certs
      else return report := by
  unfold processEntry
  by_cases hpcr : entry.pcrIndex = 7
  · by_cases hty : entry.eventType = EV_EFI_VARIABLE_DRIVER_CONFIG ∨ entry.eventType = EV_EFI_VARIABLE_BOOT
    · rw [if_neg (not_not.mpr hpcr), if_neg fun h => not_or.mpr h hty, if_pos ⟨hpcr, hty⟩]
    · rw [if_neg (not_not.mpr hpcr), if_pos (not_or.mp hty), if_neg fun h => hty h.2]
  · rw [if_pos hpcr, if_neg fun h => hpcr h.1]

/-- One entry of the analysis, by the record it was built from. -/
private theorem processEntry_classified {r : EventRecord} {entry : EventLogEntry} (h : r.Classified entry)
    (report : SecureBootChainReport) :
    processEntry parseDerCertificate report entry =
      if r.IsKeyEvent then do
        let varName ← extractVarName r.eventData
        let certs ← parseEfiSignatureList parseDerCertificate r.eventData
        return processVariable report varName certs
      else return report := by
  obtain ⟨d, rfl⟩ := h
  exact processEntry_eq parseDerCertificate report _

private theorem extractVarName_ok {r : EventRecord} (hkey : r.IsKeyEvent) (h : r.InBounds) :
    ∃ varName, extractVarName r.eventData = .ok varName :=
  (variableName_ok_iff _ r.eventData).mpr (h (hkey.2.imp_right .inl))

/-- The loop over the entries collects the key lists, and faults only outside a signature list. -/
theorem foldlM_processEntry {rs : List EventRecord} {es : List EventLogEntry}
    (h : List.Forall₂ EventRecord.Classified rs es) (hname : ∀ r ∈ rs, r.InBounds) (report : SecureBootChainReport) :
    ((∃ report', es.foldlM (processEntry parseDerCertificate) report = .ok report') ↔
      ∀ r ∈ rs, r.ListsInBounds parseDerCertificate) ∧
    ∀ report', es.foldlM (processEntry parseDerCertificate) report = .ok report' →
      report' = collect report (keyLists parseDerCertificate rs) := by
  induction h generalizing report with
  | nil => exact ⟨⟨fun _ _ h => absurd h List.not_mem_nil, fun _ => ⟨report, rfl⟩⟩, fun _ h => (Except.ok.inj h).symm⟩
  | @cons r entry rs es hr hrs ih =>
    have ih := ih fun r hr => hname r (List.mem_cons_of_mem _ hr)
    rw [List.foldlM_cons, processEntry_classified parseDerCertificate hr, List.forall_mem_cons]
    by_cases hkey : r.IsKeyEvent
    · obtain ⟨varName, hv⟩ := extractVarName_ok hkey (hname r List.mem_cons_self)
      rw [if_pos hkey, hv, ok_bind]
      cases hc : parseEfiSignatureList parseDerCertificate r.eventData with
      | error e =>
        refine ⟨⟨?_, ?_⟩, ?_⟩
        · rintro ⟨_, h⟩
          cases h
        · rintro ⟨h, -⟩
          obtain ⟨certs, h⟩ := h hkey
          rw [hc] at h
          cases h
        · intro _ h
          cases h
      | ok certs =>
        have hlist : r.keyList parseDerCertificate = some (varName, certs) :=
          (EventRecord.keyList_eq_some parseDerCertificate).mpr ⟨hkey, hv, hc⟩
        rw [ok_bind, pure_eq_ok, ok_bind]
        refine ⟨(ih _).1.trans ⟨fun h => ⟨fun _ => ⟨certs, hc⟩, h⟩, And.right⟩, fun _ h => ?_⟩
        rw [(ih _).2 _ h, keyLists_cons, hlist]
        rfl
    · have hlist : r.keyList parseDerCertificate = none := if_neg hkey
      rw [if_neg hkey, pure_eq_ok, ok_bind]
      refine ⟨(ih _).1.trans ⟨fun h => ⟨fun hk => absurd hk hkey, h⟩, And.right⟩, fun _ h => ?_⟩
      rw [(ih _).2 _ h, keyLists_cons, hlist]
      rfl

end Collect

section Validate
variable (parseDerCertificate : Bytes → CertInfo)

/-- Every read of analyser and validator on the records stays in bounds. -/
def ReadsInBounds (rs : List EventRecord) : Prop :=
  ∀ r ∈ rs, r.InBounds ∧ r.ListsInBounds parseDerCertificate

/-- The conclusion on a list of records. -/
def conclude (rs : List EventRecord) : SecureBootChainReport :=
  judgeChain (collect { secureBootEnabled := lastSetting rs = some true } (keyLists parseDerCertificate rs))

theorem validateSecureBootChain_eq_ok {rawLog : Bytes} {report : SecureBootChainReport} :
    validateSecureBootChain parseDerCertificate rawLog = .ok report ↔
      ReadsInBounds parseDerCertificate (decodedRecords rawLog) ∧
        report = conclude parseDerCertificate (decodedRecords rawLog) := by
  unfold validateSecureBootChain
  constructor
  · intro h
    obtain ⟨a, ha, h₁⟩ := bind_eq_ok h
    obtain ⟨report', hfold, h₂⟩ := bind_eq_ok h₁
    have hname := inBounds_of_parse_ok ha
    obtain ⟨a₀, ⟨⟨es, hes, hrs⟩, hsb, -, -⟩, rfl⟩ := parse_analyses ha
    simp only [generateVerdict_entries, generateVerdict_secureBootEnabled, hes, hsb] at hfold
    obtain ⟨hiff, hcollect⟩ := foldlM_processEntry parseDerCertificate hrs hname
      { secureBootEnabled := (lastSetting (decodedRecords rawLog)).getD false }
    refine ⟨fun r hr => ⟨hname r hr, hiff.mp ⟨report', hfold⟩ r hr⟩, ?_⟩
    rw [← Except.ok.inj h₂, hcollect _ hfold, conclude]
    congr 3
    cases lastSetting (decodedRecords rawLog) <;> simp
  · rintro ⟨hreads, rfl⟩
    have hname := fun r hr => (hreads r hr).1
    obtain ⟨a, ha⟩ := parse_ok_of_inBounds hname
    rw [ha, ok_bind]
    obtain ⟨a₀, ⟨⟨es, hes, hrs⟩, hsb, -, -⟩, rfl⟩ := parse_analyses ha
    simp only [generateVerdict_entries, generateVerdict_secureBootEnabled, hes, hsb]
    obtain ⟨hiff, hcollect⟩ := foldlM_processEntry parseDerCertificate hrs hname
      { secureBootEnabled := (lastSetting (decodedRecords rawLog)).getD false }
    obtain ⟨report', hfold⟩ := hiff.mpr fun r hr => (hreads r hr).2
    change (es.foldlM _ _ >>= _) = _
    rw [hfold, ok_bind, hcollect _ hfold, conclude, pure_eq_ok]
    congr 4
    cases lastSetting (decodedRecords rawLog) <;> simp

end Validate
end RootHerald.Boot
