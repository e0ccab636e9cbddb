import RootHerald.Boot.SignatureListDecoding
import RootHerald.Boot.VariableNames
import RootHerald.Boot.VendorVariables

/-! The size of the revocation list that the report carries: the certificates found in the last dbx
variable, whatever else its signature lists hold. -/
namespace RootHerald.Boot
open Lib

/-- A dbx variable, the one whose name up to its first NUL is dbx, with its signature lists. -/
structure DbxVariable extends VariableData where
  lists : List EfiSignatureList
  named : toVariableData.shortName = asUnits (text "dbx")
  data_lists : data = lists.flatMap EfiSignatureList.write

/-- A PCR 7 event that measures the variable. -/
structure DbxVariable.MeasuredBy (d : DbxVariable) (r : EventRecord) : Prop where
  key : r.IsKeyEvent
  written : r.eventData = d.write

/-- All entries of the lists, of every type. -/
def entryCount (lists : List EfiSignatureList) : Nat := (lists.map fun l => l.entries.length).sum

section Entries
variable (parseDerCertificate : Bytes → CertInfo)

/-- Every entry is a certificate that the parser finds and that has a subject. -/
def AllCertificates (lists : List EfiSignatureList) : Prop :=
  ∀ l ∈ lists, ∀ e ∈ l.entries, l.HoldsCertificates ∧ (parseDerCertificate (e.drop 16)).subject ≠ []

variable (l : EfiSignatureList)

theorem certificates_length_le : (l.certificates parseDerCertificate).length ≤ l.entries.length := by
  rw [EfiSignatureList.certificates]
  split_ifs
  · exact (List.length_filter_le _ _).trans (List.length_map _).le
  · exact Nat.zero_le _

/-- A list is counted whole when it has nothing but certificates with a subject. -/
theorem certificates_length_eq_iff : (l.certificates parseDerCertificate).length = l.entries.length ↔
    ∀ e ∈ l.entries, l.HoldsCertificates ∧ (parseDerCertificate (e.drop 16)).subject ≠ [] := by
  rw [EfiSignatureList.certificates]
  by_cases hholds : l.HoldsCertificates
  · have hmap : (l.entries.map fun e => parseDerCertificate (e.drop 16)).length = _ := List.length_map _
    rw [if_pos hholds, ← hmap, List.length_filter_eq_length_iff]
    simp [hholds]
  · rw [if_neg hholds, List.length_nil]
    constructor
    · intro hlen e he
      rw [List.length_eq_zero_iff.mp hlen.symm] at he
      exact absurd he List.not_mem_nil
    · intro h
      rw [List.eq_nil_iff_forall_not_mem.mpr fun e he => hholds (h e he).1]
      rfl

/-- The certificates found are never more than the entries, and as many only when every entry is one. -/
theorem certificates_count (lists : List EfiSignatureList) :
    (lists.flatMap (EfiSignatureList.certificates parseDerCertificate)).length ≤ entryCount lists ∧
      ((lists.flatMap (EfiSignatureList.certificates parseDerCertificate)).length = entryCount lists ↔
        AllCertificates parseDerCertificate lists) := by
  induction lists with
  | nil => exact ⟨le_rfl, fun _ l hl => absurd hl List.not_mem_nil, fun _ => rfl⟩
  | cons l lists ih =>
    obtain ⟨hle, hiff⟩ := ih
    have hl := certificates_length_le parseDerCertificate l
    have hcount : entryCount (l :: lists) = l.entries.length + entryCount lists := by
      rw [entryCount, List.map_cons, List.sum_cons, entryCount]
    rw [List.flatMap_cons, List.length_append, hcount, AllCertificates, List.forall_mem_cons,
      ← certificates_length_eq_iff, ← AllCertificates, ← hiff]
    omega

end Entries

section Run
variable (parseDerCertificate : Bytes → CertInfo) {d : DbxVariable} {r : EventRecord}

theorem DbxVariable.MeasuredBy.write_lt (h : d.MeasuredBy r) :
    d.write.length < 2 ^ 32 :=
  h.written ▸ r.eventData_lt

/-- What the validator collects from the event. -/
theorem DbxVariable.MeasuredBy.keyList (h : d.MeasuredBy r) :
    r.keyList parseDerCertificate =
      some (text "dbx", d.lists.flatMap (EfiSignatureList.certificates parseDerCertificate)) := by
  have hname : extractVarName d.write = .ok (text "dbx") :=
    extractVarName_write (h.write_lt.trans (by decide)) (plainName_of_keyNames _ (by simp [keyNames])) d.named
  have hcerts := parseEfiSignatureList_efi parseDerCertificate d.toVariableData d.lists d.data_lists h.write_lt
  rw [← h.written] at hname hcerts
  exact (EventRecord.keyList_eq_some parseDerCertificate).mpr ⟨h.key, hname, hcerts⟩

/-- A record that is no dbx event gives no list of that name. -/
theorem listsNamed_dbx_nil {rs : List EventRecord}
    (h : ∀ r ∈ rs, r.IsKeyEvent → extractVarName r.eventData ≠ .ok (text "dbx")) :
    listsNamed (text "dbx") (keyLists parseDerCertificate rs) = [] := by
  refine List.filterMap_eq_nil_iff.mpr fun key hkey => if_neg ?_
  obtain ⟨r, hr, hlist⟩ := List.mem_filterMap.mp hkey
  obtain ⟨hevent, hname, -⟩ := (EventRecord.keyList_eq_some parseDerCertificate).mp hlist
  intro hdbx
  exact h r hr hevent (hdbx ▸ hname)

variable {rawLog : Bytes} {report : SecureBootChainReport} {before after : List EventRecord}

/-- The report counts the certificates of the last dbx event. -/
theorem dbxHashCount_last (hreport : validateSecureBootChain parseDerCertificate rawLog = .ok report)
    (hlog : decodedRecords rawLog = before ++ r :: after) (hd : d.MeasuredBy r)
    (hlast : ∀ r' ∈ after, r'.IsKeyEvent → extractVarName r'.eventData ≠ .ok (text "dbx")) :
    report.dbxHashCount = (d.lists.flatMap (EfiSignatureList.certificates parseDerCertificate)).length := by
  obtain ⟨-, rfl⟩ := (validateSecureBootChain_eq_ok parseDerCertificate).mp hreport
  have hsummary := (collect_eq (lastSetting (decodedRecords rawLog) = some true)
    (keyLists parseDerCertificate (decodedRecords rawLog))).2.1
  have hcount := congrArg KeySummary.dbxHashCount hsummary
  have hkeys : listsNamed (text "dbx") (keyLists parseDerCertificate (before ++ r :: after)) =
      listsNamed (text "dbx") (keyLists parseDerCertificate before) ++
        [d.lists.flatMap (EfiSignatureList.certificates parseDerCertificate)] := by
    have hafter := listsNamed_dbx_nil parseDerCertificate hlast
    rw [listsNamed, keyLists] at hafter
    simp only [listsNamed, keyLists, List.filterMap_append, List.filterMap_cons, hd.keyList, hafter, if_true]
  rw [keySummary, hlog, hkeys, List.getLast?_append] at hcount
  rw [conclude, judgeChain_eq, hlog]
  exact hcount

/-- A log whose only event is the dbx variable is validated. -/
theorem DbxVariable.MeasuredBy.validates (h : d.MeasuredBy r) :
    ∃ report, validateSecureBootChain parseDerCertificate (emptyHeader.write ++ EventRecord.code.writeAll [r]) =
      .ok report := by
  refine ⟨_, (validateSecureBootChain_eq_ok parseDerCertificate).mpr ⟨?_, rfl⟩⟩
  rw [emptyHeader.decodedRecords_writeAll]
  exact readsInBounds_of_wellFormed parseDerCertificate
    (List.forall_mem_singleton.mpr fun _ => ⟨d.toVariableData, h.written⟩)

/-- The reported size of the revocation list is the number of entries of the last dbx variable exactly
when every entry is a certificate with a subject, so never where a list of hashes has one. -/
theorem dbxHashCount_iff (hreport : validateSecureBootChain parseDerCertificate rawLog = .ok report)
    (hlog : decodedRecords rawLog = before ++ r :: after) (hd : d.MeasuredBy r)
    (hlast : ∀ r' ∈ after, r'.IsKeyEvent → extractVarName r'.eventData ≠ .ok (text "dbx")) :
    report.dbxHashCount = entryCount d.lists ↔ AllCertificates parseDerCertificate d.lists := by
  rw [dbxHashCount_last parseDerCertificate hreport hlog hd hlast]
  exact (certificates_count parseDerCertificate d.lists).2

end Run

section Samples

def EFI_CERT_SHA256_GUID : Bytes :=
  [0x26, 0x16, 0xc4, 0xc1, 0x4c, 0x50, 0x92, 0x40, 0xac, 0xa9, 0x41, 0xf9, 0x36, 0x93, 0x43, 0x28]

/-- A dbx variable of the given lists. -/
def dbxVariable (lists : List EfiSignatureList) : DbxVariable where
  guid := EFI_IMAGE_SECURITY_DATABASE_GUID
  name := asUnits (text "dbx")
  data := lists.flatMap EfiSignatureList.write
  guid_length := rfl
  lists := lists
  named := show (asUnits (text "dbx")).takeWhile (· ≠ 0) = _ by decide +kernel
  data_lists := rfl

theorem variableRecord_measures (d : DbxVariable) (h : d.write.length < 2 ^ 32) :
    d.MeasuredBy (variableRecord 7 d.toVariableData h) :=
  ⟨⟨rfl, .inl rfl⟩, rfl⟩

theorem certX509_length : EFI_CERT_X509_GUID.length = 16 := rfl

/-- A list of one revoked certificate. -/
def revokedCertificate : EfiSignatureList :=
  ⟨EFI_CERT_X509_GUID, [], 17, [List.replicate 16 0 ++ [48]], certX509_length, by decide⟩

/-- A list of one revoked hash. -/
def revokedHash : EfiSignatureList := ⟨EFI_CERT_SHA256_GUID, [], 48, [List.replicate 48 0], rfl, by decide⟩

theorem revokedCertificate_lt : (dbxVariable [revokedCertificate]).write.length < 2 ^ 32 := by decide

theorem revokedHash_lt : (dbxVariable [revokedHash]).write.length < 2 ^ 32 := by decide

theorem dbxHashCount_certificate : ∃ report,
    validateSecureBootChain (fun der => { subject := der }) (emptyHeader.write ++ EventRecord.code.writeAll
      [variableRecord 7 (dbxVariable [revokedCertificate]).toVariableData revokedCertificate_lt]) = .ok report ∧
    report.dbxHashCount = 1 := by
  have hd := variableRecord_measures (dbxVariable [revokedCertificate]) revokedCertificate_lt
  obtain ⟨report, hreport⟩ := hd.validates fun der => { subject := der }
  have hlog : _ = [] ++ _ :: [] := emptyHeader.decodedRecords_writeAll
    [variableRecord 7 (dbxVariable [revokedCertificate]).toVariableData revokedCertificate_lt]
  exact ⟨report, hreport, (dbxHashCount_iff _ hreport hlog hd (by simp)).mpr
    (List.forall_mem_singleton.mpr (List.forall_mem_singleton.mpr ⟨by decide, by decide⟩))⟩

/-- A revoked hash is not counted. -/
theorem revoked_hash_not_counted :
    ¬ ∀ (parseDerCertificate : Bytes → CertInfo) (rawLog : Bytes) (report : SecureBootChainReport)
      (before after : List EventRecord) (r : EventRecord) (d : DbxVariable),
      validateSecureBootChain parseDerCertificate rawLog = .ok report →
      decodedRecords rawLog = before ++ r :: after → d.MeasuredBy r →
      (∀ r' ∈ after, r'.IsKeyEvent → extractVarName r'.eventData ≠ .ok (text "dbx")) →
      report.dbxHashCount = entryCount d.lists := by
  intro h
  have hd := variableRecord_measures (dbxVariable [revokedHash]) revokedHash_lt
  obtain ⟨report, hreport⟩ := hd.validates fun der => { subject := der }
  have hlog : _ = [] ++ _ :: [] := emptyHeader.decodedRecords_writeAll
    [variableRecord 7 (dbxVariable [revokedHash]).toVariableData revokedHash_lt]
  have hcount := h _ _ report [] [] _ _ hreport hlog hd (by simp)
  rw [dbxHashCount_last _ hreport hlog hd (by simp)] at hcount
  exact absurd hcount (by decide)

end Samples
end RootHerald.Boot
