import RootHerald.Boot.SecureBootValidator
import RootHerald.Boot.VariableData

/-! Which reads of the signature-list parser stay inside the variable data. Only the sum of data
offset and data length, which wraps in 64 bits, lets it read past the end. -/
namespace RootHerald.Boot
open Lib

/-- A std::vector<uint8_t> of the 64-bit target, whose size is a ptrdiff_t. -/
structure ByteVector where
  bytes : Bytes
  size_lt : bytes.length < 2 ^ 63

/-- The sizes of the lists lead, inside the bytes, to a list header that declares size zero. -/
inductive MeetsEmptyList : Bytes → Prop
  | here {s : Bytes} (header : 28 ≤ s.length) (size : wordAt s 16 = 0) : MeetsEmptyList s
  | next {s : Bytes} (header : 28 ≤ s.length) (rest : MeetsEmptyList (s.drop (wordAt s 16).toNat)) : MeetsEmptyList s

theorem MeetsEmptyList.header_le {s : Bytes} (h : MeetsEmptyList s) : 28 ≤ s.length := by
  cases h <;> assumption

/-- Behind a list of another size the walk is where that size leads. -/
theorem meetsEmptyList_next {s : Bytes} (header : 28 ≤ s.length) (hsize : wordAt s 16 ≠ 0) :
    MeetsEmptyList s ↔ MeetsEmptyList (s.drop (wordAt s 16).toNat) := by
  refine ⟨fun h => ?_, .next header⟩
  cases h with
  | here _ size => exact absurd size hsize
  | next _ rest => exact rest

/-- What is left of an entry behind its owner. -/
theorem toNat_certLen {sigSize : UInt32} (h : 16 < sigSize.toNat) : (sigSize - 16).toNat = sigSize.toNat - 16 := by
  apply UInt32.toNat_sub_of_le
  rw [UInt32.le_iff_toNat_le]
  exact h.le

section Loops
variable (parseDerCertificate : Bytes → CertInfo)

/-- Every entry ends in front of the end of its list. -/
private theorem signatureEntriesLoop_ok {p : Bytes} {listSize : UInt32} (hlist : listSize.toNat ≤ p.length)
    (sigSize : UInt32) (offset : Nat) (certs : List CertInfo) :
    ∃ certs', signatureEntriesLoop parseDerCertificate p listSize sigSize offset certs = .ok certs' := by
  fun_induction signatureEntriesLoop parseDerCertificate p listSize sigSize offset certs with
  | case1 offset certs h certLen _ hcert ih =>
    have hlen : certLen = sigSize.toNat - 16 := toNat_certLen h.1
    rw [readRange_ok (by rw [List.length_drop]; omega), ok_bind]
    exact ih _
  | case2 offset certs h certLen _ hcert ih => exact ih certs
  | case3 offset certs h => exact ⟨certs, rfl⟩

/-- What the list at the front adds. -/
def listCerts (s : Bytes) (certs : List CertInfo) : Checked (List CertInfo) :=
  if s.take 16 = EFI_CERT_X509_GUID ∧ 16 < (wordAt s 24).toNat then
    signatureEntriesLoop parseDerCertificate s (wordAt s 16) (wordAt s 24) (28 + wordAt s 20).toNat certs
  else .ok certs

private theorem listCerts_ok {s : Bytes} (hlist : (wordAt s 16).toNat ≤ s.length) (certs : List CertInfo) :
    ∃ certs', listCerts parseDerCertificate s certs = .ok certs' := by
  unfold listCerts
  split_ifs
  · exact signatureEntriesLoop_ok parseDerCertificate hlist _ _ certs
  · exact ⟨certs, rfl⟩

/-- A list header of 28 bytes is read whole. -/
theorem signatureListLoop_header {s : Bytes} {remaining : Nat} (certs : List CertInfo)
    (hs : 28 ≤ s.length) (hr : 28 ≤ remaining) :
    signatureListLoop parseDerCertificate s remaining certs =
      if (wordAt s 16).toNat = 0 ∨ remaining < (wordAt s 16).toNat then .ok certs
      else listCerts parseDerCertificate s certs >>=
        signatureListLoop parseDerCertificate (s.drop (wordAt s 16).toNat) (remaining - (wordAt s 16).toNat) := by
  rw [listCerts, signatureListLoop, if_pos hr, readU32LE_drop (by omega), readU32LE_drop (by omega), readU32LE_drop (by omega),
    readRange_ok (by omega)]
  simp only [ok_bind, pure_eq_ok]
  split_ifs <;> rfl

/-- A header that is not there is read past the end. -/
private theorem signatureListLoop_short {s : Bytes} {remaining : Nat} (certs : List CertInfo)
    (hs : s.length < 28) (hr : 28 ≤ remaining) :
    ¬ ∃ certs', signatureListLoop parseDerCertificate s remaining certs = .ok certs' := by
  rintro ⟨certs', h⟩
  rw [signatureListLoop, if_pos hr] at h
  obtain ⟨listSize, -, h⟩ := bind_eq_ok h
  obtain ⟨headerSize, -, h⟩ := bind_eq_ok h
  obtain ⟨sigSize, h₂₄, -⟩ := bind_eq_ok h
  rw [readU32LE_error (by rw [List.length_drop]; omega)] at h₂₄
  cases h₂₄

/-- With no more bytes declared than there are, every read is of a byte that is there. -/
theorem signatureListLoop_ok {s : Bytes} {remaining : Nat} (h : remaining ≤ s.length) (certs : List CertInfo) :
    ∃ certs', signatureListLoop parseDerCertificate s remaining certs = .ok certs' := by
  induction remaining using Nat.strongRecOn generalizing s certs with
  | ind remaining ih =>
    by_cases hr : 28 ≤ remaining
    · rw [signatureListLoop_header parseDerCertificate certs (hr.trans h) hr]
      split_ifs with hstop
      · exact ⟨certs, rfl⟩
      · have hlist : (wordAt s 16).toNat ≤ s.length := by omega
        obtain ⟨certs₁, h₁⟩ := listCerts_ok parseDerCertificate hlist certs
        rw [h₁, ok_bind]
        exact ih _ (by omega) (by rw [List.length_drop]; omega) certs₁
    · rw [signatureListLoop, if_neg hr]
      exact ⟨certs, rfl⟩

/-- With more bytes declared than the sizes of the lists can use up, only a list of size zero stops
the walk. -/
theorem signatureListLoop_ok_iff {s : Bytes} {remaining : Nat} (h : s.length + 2 ^ 33 ≤ remaining)
    (certs : List CertInfo) :
    (∃ certs', signatureListLoop parseDerCertificate s remaining certs = .ok certs') ↔ MeetsEmptyList s := by
  induction hn : s.length using Nat.strongRecOn generalizing s remaining certs with
  | ind n ih =>
    have hsize := (wordAt s 16).toNat_lt
    by_cases hs : 28 ≤ s.length
    · rw [signatureListLoop_header parseDerCertificate certs hs (by omega)]
      by_cases hzero : wordAt s 16 = 0
      · rw [if_pos (.inl (by rw [hzero]; rfl))]
        exact ⟨fun _ => .here hs hzero, fun _ => ⟨certs, rfl⟩⟩
      · have hpos : (wordAt s 16).toNat ≠ 0 := fun h0 => hzero (UInt32.toNat_inj.mp h0)
        have hstop : ¬ ((wordAt s 16).toNat = 0 ∨ remaining < (wordAt s 16).toNat) := by omega
        have hmeets := meetsEmptyList_next hs hzero
        have hrest : ∀ certs, (∃ certs', signatureListLoop parseDerCertificate (s.drop (wordAt s 16).toNat)
            (remaining - (wordAt s 16).toNat) certs = .ok certs') ↔ MeetsEmptyList s := by
          intro certs
          rw [hmeets]
          by_cases hinside : (wordAt s 16).toNat ≤ s.length
          · exact ih _ (by rw [List.length_drop]; omega) (by rw [List.length_drop]; omega) certs rfl
          · -- the list ends behind the vector, where no header is
            have hnil : s.drop (wordAt s 16).toNat = [] := List.drop_eq_nil_iff.mpr (by omega)
            rw [hnil]
            exact iff_of_false (signatureListLoop_short parseDerCertificate certs (by simp) (by omega))
              fun hm => absurd hm.header_le (by simp)
        rw [if_neg hstop]
        constructor
        · rintro ⟨certs', h'⟩
          obtain ⟨certs₁, -, h₁⟩ := bind_eq_ok h'
          exact (hrest certs₁).mp ⟨certs', h₁⟩
        · intro hm
          have hinside := (hmeets.mp hm).header_le
          rw [List.length_drop] at hinside
          have hlist : (wordAt s 16).toNat ≤ s.length := by omega
          obtain ⟨certs₁, h₁⟩ := listCerts_ok parseDerCertificate hlist certs
          rw [h₁, ok_bind]
          exact (hrest certs₁).mpr hm
    · exact iff_of_false (signatureListLoop_short parseDerCertificate certs (by omega) (by omega))
        fun hm => hs hm.header_le

end Loops

section Lists
variable (parseDerCertificate : Bytes → CertInfo)

theorem parseEfiSignatureList_eq {d : Bytes} (h : 32 ≤ d.length) :
    parseEfiSignatureList parseDerCertificate d =
      if d.length < (dataOffset d + dataLength d).toNat then .ok []
      else signatureListLoop parseDerCertificate (d.drop (dataOffset d).toNat) (dataLength d).toNat [] := by
  rw [parseEfiSignatureList, if_neg (by omega), readU64LE_ok (by rw [List.length_drop]; omega),
    readU64LE_ok (by rw [List.length_drop]; omega)]
  rfl

/-- The parser returns, with every read inside the variable data, exactly when the sum of data offset and
data length does not wrap, or what wraps is refused, leaves no list header, or meets a list of size zero
inside the data. -/
theorem parseEfiSignatureList_inBounds_iff (d : ByteVector) :
    (∃ certs, parseEfiSignatureList parseDerCertificate d.bytes = .ok certs) ↔
      d.bytes.length < 32 ∨ (dataOffset d.bytes).toNat + (dataLength d.bytes).toNat < 2 ^ 64 ∨
      d.bytes.length < (dataOffset d.bytes + dataLength d.bytes).toNat ∨ (dataLength d.bytes).toNat < 28 ∨
      MeetsEmptyList (d.bytes.drop (dataOffset d.bytes).toNat) := by
  obtain ⟨d, hd⟩ := d
  dsimp only
  by_cases h32 : d.length < 32
  · refine iff_of_true ⟨[], ?_⟩ (.inl h32)
    rw [parseEfiSignatureList, if_pos h32]
    rfl
  rw [parseEfiSignatureList_eq parseDerCertificate (by omega)]
  have hsum := UInt64.toNat_add (dataOffset d) (dataLength d)
  by_cases hguard : d.length < (dataOffset d + dataLength d).toNat
  · rw [if_pos hguard]
    exact iff_of_true ⟨[], rfl⟩ (.inr (.inr (.inl hguard)))
  rw [if_neg hguard]
  by_cases hwrap : (dataOffset d).toNat + (dataLength d).toNat < 2 ^ 64
  · rw [Nat.mod_eq_of_lt hwrap] at hsum
    exact iff_of_true (signatureListLoop_ok parseDerCertificate (by rw [List.length_drop]; omega) [])
      (.inr (.inl hwrap))
  · simp only [h32, hguard, hwrap, false_or]
    by_cases hlen : (dataLength d).toNat < 28
    · refine iff_of_true ⟨[], ?_⟩ (.inl hlen)
      rw [signatureListLoop, if_neg (by omega)]
      rfl
    · simp only [hlen, false_or]
      by_cases hinside : (dataOffset d).toNat ≤ d.length
      · exact signatureListLoop_ok_iff parseDerCertificate (by rw [List.length_drop]; omega) []
      · rw [List.drop_eq_nil_iff.mpr (by omega)]
        exact iff_of_false (signatureListLoop_short parseDerCertificate [] (by simp) (by omega))
          fun hm => absurd hm.header_le (by simp)

/-- A header alone, with a data length that wraps the sum to zero. -/
def wrappedDataLength : ByteVector :=
  ⟨List.replicate 24 0 ++ leBytes 8 (2 ^ 64 - 32), by decide +kernel⟩

theorem parseEfiSignatureList_reads_past_end :
    ¬ ∀ (parseDerCertificate : Bytes → CertInfo) (d : ByteVector),
      ∃ certs, parseEfiSignatureList parseDerCertificate d.bytes = .ok certs := by
  intro h
  obtain ⟨certs, hcerts⟩ := h (fun _ => {}) wrappedDataLength
  rw [parseEfiSignatureList_eq _ (by decide), if_neg (by decide)] at hcerts
  exact signatureListLoop_short _ [] (by decide) (by decide) ⟨certs, hcerts⟩

end Lists
end RootHerald.Boot
