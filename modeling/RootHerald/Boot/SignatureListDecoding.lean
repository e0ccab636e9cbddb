import RootHerald.Boot.SignatureListBounds

/-! Well-formed EFI_SIGNATURE_LISTs and what the parser makes of them: the certificates of the X.509
lists in order, and nothing of the others. -/
namespace RootHerald.Boot
open Lib

/-- A list of entries of one size, of any type. -/
structure EfiSignatureList where
  signatureType : Bytes
  header : Bytes
  signatureSize : UInt32
  entries : List Bytes
  type_length : signatureType.length = 16
  entry_length : ∀ e ∈ entries, e.length = signatureSize.toNat

namespace EfiSignatureList

/-- SignatureListSize, without wrapping. -/
def size (l : EfiSignatureList) : Nat := 28 + l.header.length + l.entries.length * l.signatureSize.toNat

def write (l : EfiSignatureList) : Bytes :=
  l.signatureType ++ (bytes32 (UInt32.ofNat l.size) ++ (bytes32 (UInt32.ofNat l.header.length) ++
    (bytes32 l.signatureSize ++ (l.header ++ l.entries.flatten))))

/-- An X.509 list with certificates of 1 to 65535 bytes. -/
def HoldsCertificates (l : EfiSignatureList) : Prop :=
  l.signatureType = EFI_CERT_X509_GUID ∧ 16 < l.signatureSize.toNat ∧ l.signatureSize.toNat - 16 < 65536

instance (l : EfiSignatureList) : Decidable l.HoldsCertificates := inferInstanceAs (Decidable (_ ∧ _))

/-- The certificates the parser finds, those of no subject left out. -/
def certificates (parseDerCertificate : Bytes → CertInfo) (l : EfiSignatureList) : List CertInfo :=
  if l.HoldsCertificates then
    (l.entries.map fun e => parseDerCertificate (e.drop 16)).filter fun c => c.subject ≠ []
  else []

variable (l : EfiSignatureList)

theorem entries_length (es : List Bytes) (n : Nat) (h : ∀ e ∈ es, e.length = n) :
    es.flatten.length = es.length * n := by
  induction es with
  | nil => simp
  | cons e es ih =>
    obtain ⟨he, hes⟩ := List.forall_mem_cons.mp h
    rw [List.flatten_cons, List.length_append, he, ih hes, List.length_cons, Nat.succ_mul, Nat.add_comm]

theorem write_length : l.write.length = l.size := by
  simp only [write, size, List.length_append, bytes32_length, l.type_length, entries_length _ _ l.entry_length]
  omega

variable (rest : Bytes)

private theorem wordAt_append {q s : Bytes} {v : UInt32} {i : Nat} (hq : q.length = i) :
    wordAt (q ++ (bytes32 v ++ s)) i = v := by
  rw [wordAt, List.drop_left' hq, List.take_left' (bytes32_length v), ofNat_bytes32]

theorem take_type : (l.write ++ rest).take 16 = l.signatureType := by
  rw [write, List.append_assoc]
  exact List.take_left' l.type_length

theorem wordAt_size : wordAt (l.write ++ rest) 16 = UInt32.ofNat l.size := by
  simp only [write, List.append_assoc]
  exact wordAt_append l.type_length

theorem wordAt_headerSize : wordAt (l.write ++ rest) 20 = UInt32.ofNat l.header.length := by
  simp only [write, List.append_assoc]
  rw [← List.append_assoc]
  exact wordAt_append (by rw [List.length_append, l.type_length, bytes32_length])

theorem wordAt_signatureSize : wordAt (l.write ++ rest) 24 = l.signatureSize := by
  simp only [write, List.append_assoc]
  rw [← List.append_assoc, ← List.append_assoc]
  exact wordAt_append (by simp only [List.length_append, l.type_length, bytes32_length])

end EfiSignatureList

/-- A list of entries of one size; the certificates of an X.509 list are below 64 KiB. -/
structure SignatureList where
  signatureType : Bytes
  header : Bytes
  signatureSize : UInt32
  entries : List Bytes
  type_length : signatureType.length = 16
  entry_length : ∀ e ∈ entries, e.length = signatureSize.toNat
  x509_size : signatureType = EFI_CERT_X509_GUID → 16 < signatureSize.toNat ∧ signatureSize.toNat - 16 < 65536

namespace SignatureList

/-- SignatureListSize, without wrapping. -/
def size (l : SignatureList) : Nat := 28 + l.header.length + l.entries.length * l.signatureSize.toNat

def write (l : SignatureList) : Bytes :=
  l.signatureType ++ (bytes32 (UInt32.ofNat l.size) ++ (bytes32 (UInt32.ofNat l.header.length) ++
    (bytes32 l.signatureSize ++ (l.header ++ l.entries.flatten))))

/-- The certificates the parser is to find. -/
def certificates (parseDerCertificate : Bytes → CertInfo) (l : SignatureList) : List CertInfo :=
  if l.signatureType = EFI_CERT_X509_GUID then
    (l.entries.map fun e => parseDerCertificate (e.drop 16)).filter fun c => c.subject ≠ []
  else []

/-- The list without the bound on its certificates. -/
def efi (l : SignatureList) : EfiSignatureList :=
  ⟨l.signatureType, l.header, l.signatureSize, l.entries, l.type_length, l.entry_length⟩

/-- The bound leaves no X.509 list out. -/
theorem efi_certificates (parseDerCertificate : Bytes → CertInfo) :
    EfiSignatureList.certificates parseDerCertificate ∘ efi = certificates parseDerCertificate := by
  funext l
  have hholds : l.efi.HoldsCertificates ↔ l.signatureType = EFI_CERT_X509_GUID :=
    and_iff_left_of_imp l.x509_size
  rw [Function.comp_apply, EfiSignatureList.certificates, certificates]
  simp only [hholds]
  rfl

end SignatureList

section Decode
variable (parseDerCertificate : Bytes → CertInfo)

/-- The entry loop at an entry boundary appends the certificates that are left. -/
private theorem signatureEntriesLoop_entries {pre rest : Bytes} {es : List Bytes} {listSize sigSize : UInt32}
    (hes : ∀ e ∈ es, e.length = sigSize.toNat) (hsize : 16 < sigSize.toNat ∧ sigSize.toNat - 16 < 65536)
    (hlist : listSize.toNat = pre.length + es.flatten.length) (hwrap : listSize.toNat + 28 < 2 ^ 32)
    (certs : List CertInfo) :
    signatureEntriesLoop parseDerCertificate (pre ++ (es.flatten ++ rest)) listSize sigSize pre.length certs =
      .ok (certs ++ (es.map fun e => parseDerCertificate (e.drop 16)).filter fun c => c.subject ≠ []) := by
  have hbound : (28 + listSize - 28 + 28).toNat = listSize.toNat + 28 := by
    rw [show 28 + listSize - 28 + 28 = listSize + 28 by rw [UInt32.add_comm 28, UInt32.add_sub_cancel],
      UInt32.toNat_add]
    exact Nat.mod_eq_of_lt hwrap
  have hcert := toNat_certLen hsize.1
  induction es generalizing pre certs with
  | nil =>
    rw [List.flatten_nil, List.length_nil, Nat.add_zero] at hlist
    rw [signatureEntriesLoop, dif_neg (by omega)]
    simp
  | cons e es ih =>
    obtain ⟨he, hes⟩ := List.forall_mem_cons.mp hes
    rw [List.flatten_cons, List.length_append, he] at hlist
    have hread : readRange ((pre ++ ((e :: es).flatten ++ rest)).drop (pre.length + 16)) (sigSize - 16).toNat =
        .ok (e.drop 16) := by
      rw [← List.drop_drop, List.drop_left, List.flatten_cons, List.append_assoc,
        List.drop_append_of_le_length (by omega), show (sigSize - 16).toNat = (e.drop 16).length by
          rw [List.length_drop, hcert, he]]
      exact readRange_append _ _
    have hbehind : listSize.toNat = (pre ++ e).length + es.flatten.length := by
      rw [List.length_append, he]
      omega
    have hih := ih hes hbehind
    rw [List.length_append, he, List.append_assoc, ← List.append_assoc e, ← List.flatten_cons] at hih
    rw [signatureEntriesLoop, dif_pos ⟨hsize.1, by omega, by omega⟩]
    dsimp only
    rw [if_pos ⟨by omega, by omega⟩, hread]
    simp only [ok_bind, pure_eq_ok, hih]
    by_cases hsubject : (parseDerCertificate (e.drop 16)).subject = [] <;> simp [hsubject]

/-- Entries of 64 KiB and more are walked over. -/
private theorem signatureEntriesLoop_long {p : Bytes} {listSize sigSize : UInt32}
    (hsize : 65536 ≤ sigSize.toNat - 16) (offset : Nat) (certs : List CertInfo) :
    signatureEntriesLoop parseDerCertificate p listSize sigSize offset certs = .ok certs := by
  fun_induction signatureEntriesLoop parseDerCertificate p listSize sigSize offset certs with
  | case1 offset certs h certLen _ hcert ih =>
    have hlen : certLen = sigSize.toNat - 16 := toNat_certLen h.1
    omega
  | case2 offset certs h certLen _ hcert ih => exact ih certs
  | case3 offset certs h => rfl

/-- What the parser takes from one list in front of others. -/
private theorem signatureList_entries (l : EfiSignatureList) (hl : l.size + 28 < 2 ^ 32) (rest : Bytes)
    (certs : List CertInfo) :
    listCerts parseDerCertificate (l.write ++ rest) certs = .ok (certs ++ l.certificates parseDerCertificate) := by
  rw [listCerts, l.take_type, l.wordAt_signatureSize, l.wordAt_size, l.wordAt_headerSize,
    EfiSignatureList.certificates]
  by_cases hholds : l.HoldsCertificates
  · obtain ⟨htype, hsizes⟩ := hholds
    have htotal : l.size = 28 + l.header.length + l.entries.flatten.length := by
      rw [EfiSignatureList.entries_length _ _ l.entry_length, EfiSignatureList.size]
    have hheader : (28 + UInt32.ofNat l.header.length).toNat = 28 + l.header.length := by
      rw [UInt32.toNat_add, UInt32.toNat_ofNat_of_lt' (show l.header.length < 2 ^ 32 by omega)]
      exact Nat.mod_eq_of_lt (show 28 + l.header.length < 2 ^ 32 by omega)
    have hsize : (UInt32.ofNat l.size).toNat = l.size :=
      UInt32.toNat_ofNat_of_lt' (show l.size < 2 ^ 32 by omega)
    let pre := l.signatureType ++ (bytes32 (UInt32.ofNat l.size) ++ (bytes32 (UInt32.ofNat l.header.length) ++
      (bytes32 l.signatureSize ++ l.header)))
    have hpre : pre.length = 28 + l.header.length := by
      simp only [pre, List.length_append, bytes32_length, l.type_length]
      omega
    have hwrite : l.write ++ rest = pre ++ (l.entries.flatten ++ rest) := by
      simp only [pre, EfiSignatureList.write, List.append_assoc]
    rw [if_pos ⟨htype, hsizes.1⟩, if_pos ⟨htype, hsizes⟩, hheader, ← hpre, hwrite]
    exact signatureEntriesLoop_entries parseDerCertificate l.entry_length hsizes (by omega) (by omega) certs
  · rw [if_neg hholds, List.append_nil]
    by_cases hwalked : l.signatureType = EFI_CERT_X509_GUID ∧ 16 < l.signatureSize.toNat
    · have hlong : ¬ l.signatureSize.toNat - 16 < 65536 := fun h => hholds ⟨hwalked.1, hwalked.2, h⟩
      rw [if_pos hwalked]
      exact signatureEntriesLoop_long parseDerCertificate (Nat.not_lt.mp hlong) _ certs
    · rw [if_neg hwalked]

/-- The list loop at a list boundary. -/
private theorem signatureListLoop_lists (lists : List EfiSignatureList)
    (hsize : ∀ l ∈ lists, l.size + 28 < 2 ^ 32) (certs : List CertInfo) :
    signatureListLoop parseDerCertificate (lists.flatMap EfiSignatureList.write)
        (lists.flatMap EfiSignatureList.write).length certs =
      .ok (certs ++ lists.flatMap (EfiSignatureList.certificates parseDerCertificate)) := by
  induction lists generalizing certs with
  | nil =>
    rw [signatureListLoop, if_neg (by simp)]
    simp
  | cons l lists ih =>
    obtain ⟨hl, hlists⟩ := List.forall_mem_cons.mp hsize
    have hlen := l.write_length
    have hpos : 28 ≤ l.size := by
      rw [EfiSignatureList.size]
      omega
    have hword : (wordAt (l.write ++ lists.flatMap EfiSignatureList.write) 16).toNat = l.size := by
      rw [l.wordAt_size]
      exact UInt32.toNat_ofNat_of_lt' (show l.size < 2 ^ 32 by omega)
    have htotal : (l.write ++ lists.flatMap EfiSignatureList.write).length =
        l.size + (lists.flatMap EfiSignatureList.write).length := by
      rw [List.length_append, hlen]
    rw [List.flatMap_cons, signatureListLoop_header parseDerCertificate certs (by omega) (by omega), hword, htotal,
      if_neg (by omega), signatureList_entries parseDerCertificate l hl, ok_bind, List.drop_left' hlen,
      Nat.add_sub_cancel_left, List.flatMap_cons, ← List.append_assoc certs]
    exact ih hlists _

/-- On well-formed variable data the list loop has the data, and all of it. -/
theorem parseEfiSignatureList_write {v : VariableData} (h : v.write.length < 2 ^ 64) :
    parseEfiSignatureList parseDerCertificate v.write =
      signatureListLoop parseDerCertificate v.data v.data.length [] := by
  have hlen := v.write_length
  have hsum : (dataOffset v.write + dataLength v.write).toNat = v.write.length := by
    rw [UInt64.toNat_add, v.dataOffset_write h, v.dataLength_write h]
    omega
  rw [parseEfiSignatureList_eq parseDerCertificate (by omega), hsum, if_neg (by omega), v.dataOffset_write h,
    v.drop_name, v.dataLength_write h]

/-- On a variable of signature lists of any types the parser returns what it finds in each, in order. -/
theorem parseEfiSignatureList_efi (v : VariableData) (lists : List EfiSignatureList)
    (hdata : v.data = lists.flatMap EfiSignatureList.write) (htotal : v.write.length < 2 ^ 32) :
    parseEfiSignatureList parseDerCertificate v.write =
      .ok (lists.flatMap (EfiSignatureList.certificates parseDerCertificate)) := by
  have hlen := v.write_length
  have hsize : ∀ l ∈ lists, l.size + 28 < 2 ^ 32 := by
    intro l hl
    have hle : l.write.length ≤ (lists.flatMap EfiSignatureList.write).length :=
      (List.sublist_flatten_of_mem (List.mem_map_of_mem hl)).length_le
    rw [l.write_length, ← hdata] at hle
    omega
  rw [parseEfiSignatureList_write parseDerCertificate (by omega), hdata,
    signatureListLoop_lists parseDerCertificate lists hsize]
  rfl

/-- On a variable of well-formed signature lists the parser returns the certificates of its X.509
lists in order, those of no subject left out. -/
theorem parseEfiSignatureList_lists (v : VariableData) (lists : List SignatureList)
    (hdata : v.data = lists.flatMap SignatureList.write) (htotal : v.write.length < 2 ^ 32) :
    parseEfiSignatureList parseDerCertificate v.write =
      .ok (lists.flatMap (SignatureList.certificates parseDerCertificate)) := by
  have hefi := parseEfiSignatureList_efi parseDerCertificate v (lists.map SignatureList.efi)
  rw [List.flatMap_map, List.flatMap_map] at hefi
  rw [← SignatureList.efi_certificates]
  exact hefi hdata htotal

/-- An X.509 list of two entries of one byte each, the second without a subject, behind a list of hashes. -/
def sampleLists : List SignatureList :=
  [⟨List.replicate 16 1, [7], 3, [[1, 2, 3]], rfl, by decide, by decide⟩,
    ⟨EFI_CERT_X509_GUID, [], 17, [List.replicate 16 0 ++ [48], List.replicate 16 0 ++ [0]], rfl, by decide, by decide⟩]

theorem parseEfiSignatureList_sample :
    parseEfiSignatureList (fun der => { subject := der.filter (· ≠ 0) })
      (VariableData.mk (List.replicate 16 0) [100, 98] (sampleLists.flatMap SignatureList.write)
        zeroGuid_length).write =
        .ok [{ subject := [48] }] :=
  (parseEfiSignatureList_lists _ _ sampleLists rfl (by decide +kernel)).trans (by decide)

end Decode
end RootHerald.Boot
