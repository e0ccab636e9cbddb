import RootHerald.Windows.EkIdentity

/-! The certificate inside a registry blob, as the EK store and the store of intermediates cut it out. The one
takes the length the certificate declares, the other everything behind its first byte. -/
namespace RootHerald.Windows
open Lib

section Normalization

/-- The loop over the first bytes, at index i. -/
def sequenceScan (blob : Bytes) (scanLimit i : Nat) : Bytes :=
  if i + 4 < scanLimit then
    if blob.getD i 0 = 0x30 ∧ blob.getD (i + 1) 0 = 0x82 then blob.drop i else sequenceScan blob scanLimit (i + 1)
  else []
termination_by scanLimit - i

def normalizeBlobToDer (blob : Bytes) : Bytes :=
  if blob.length < 4 then []
  else if blob.getD 0 0 = 0x30 ∧ (blob.getD 1 0 = 0x82 ∨ blob.getD 1 0 = 0x81) then blob
  else sequenceScan blob (if blob.length < 64 then blob.length else 64) 1

/-- The blobs of the store that can be read, less those that hold no CA certificate. -/
def readWindowsTpmIntermediateStore (looksLikeCaCert : Bytes → Bool) (blobs : List Bytes) : List Bytes :=
  (blobs.map normalizeBlobToDer).filter fun der => der ≠ [] && looksLikeCaCert der

end Normalization

section Blobs

/-- SEQUENCE with a two-byte length. -/
def SequenceAt (blob : Bytes) (i : Nat) : Prop := blob.getD i 0 = 0x30 ∧ blob.getD (i + 1) 0 = 0x82

instance (blob : Bytes) (i : Nat) : Decidable (SequenceAt blob i) := inferInstanceAs (Decidable (_ ∧ _))

/-- A certificate with what stands around it in the registry. -/
structure StoreBlob where
  front : Bytes
  hi : UInt8
  lo : UInt8
  body : Bytes
  trailer : Bytes
  body_length : body.length = 256 * hi.toNat + lo.toNat
  body_long : 64 < 4 + body.length
  front_length : front.length ≤ 59
  first : ∀ i < front.length, ¬ SequenceAt (front ++ (0x30 :: 0x82 :: hi :: lo :: (body ++ trailer))) i

namespace StoreBlob

def cert (s : StoreBlob) : Bytes := 0x30 :: 0x82 :: s.hi :: s.lo :: s.body

def write (s : StoreBlob) : Bytes := s.front ++ (0x30 :: 0x82 :: s.hi :: s.lo :: (s.body ++ s.trailer))

/-- Both readers cut out the certificate. -/
def CutAlike (s : StoreBlob) : Prop := extractDerCertificate s.write = s.cert ∧ normalizeBlobToDer s.write = s.cert

private theorem extractDerCertificate_skip {front rest : Bytes} (h : ∀ i < front.length, ¬ SequenceAt (front ++ rest) i) :
    extractDerCertificate (front ++ rest) = extractDerCertificate rest := by
  induction front with
  | nil => rfl
  | cons b front ih =>
    have hfirst := h 0 (Nat.zero_lt_succ _)
    have hlater : ∀ i < front.length, ¬ SequenceAt (front ++ rest) i := fun i hi hat =>
      h (i + 1) (Nat.succ_lt_succ hi) hat
    rw [List.cons_append] at hfirst ⊢
    rw [extractDerCertificate]
    · exact ih hlater
    · rintro hi lo rest' rfl hblob
      rw [hblob] at hfirst
      exact hfirst ⟨rfl, rfl⟩

/-- The EK store's reader takes the declared length. -/
theorem extractDerCertificate_write (s : StoreBlob) : extractDerCertificate s.write = s.cert := by
  have hlength : beNat [s.hi, s.lo] = s.body.length := by
    rw [s.body_length]
    simp only [beNat, List.reverse_cons, List.reverse_nil, List.nil_append, List.cons_append, leNat]
    omega
  have hbody := s.body_long
  have hne : s.body ++ s.trailer ≠ [] := by
    apply List.ne_nil_of_length_pos
    rw [List.length_append]
    omega
  have htotal : 64 < 4 + beNat [s.hi, s.lo] ∧ 4 + beNat [s.hi, s.lo] ≤ (s.body ++ s.trailer).length + 4 ∧
      s.body ++ s.trailer ≠ [] := by
    rw [hlength, List.length_append]
    exact ⟨hbody, by omega, hne⟩
  rw [write, extractDerCertificate_skip s.first, extractDerCertificate]
  rw [if_pos htotal, hlength, cert, Nat.add_comm 4]
  simp only [List.take_succ_cons, List.take_left]

private theorem sequenceScan_skip {blob : Bytes} {scanLimit i n : Nat} (h : ∀ j, i ≤ j → j < i + n → ¬ SequenceAt blob j)
    (hlimit : i + n + 4 < scanLimit) : sequenceScan blob scanLimit i = sequenceScan blob scanLimit (i + n) := by
  induction n generalizing i with
  | zero => rfl
  | succ n ih =>
    have hi : ¬ (blob.getD i 0 = 0x30 ∧ blob.getD (i + 1) 0 = 0x82) := h i (le_refl i) (by omega)
    rw [sequenceScan, if_pos (by omega), if_neg hi, ih (fun j hj hlt => h j (by omega) (by omega)) (by omega),
      Nat.add_right_comm, Nat.add_assoc]

theorem drop_write (s : StoreBlob) : s.write.drop s.front.length = s.cert ++ s.trailer := by
  rw [write, List.drop_left]
  rfl

theorem write_length (s : StoreBlob) : s.write.length = s.front.length + 4 + s.body.length + s.trailer.length := by
  simp only [write, List.length_append, List.length_cons]
  omega

/-- When a blob is returned as it is. -/
private theorem fast_path (s : StoreBlob) :
    (s.write.getD 0 0 = 0x30 ∧ (s.write.getD 1 0 = 0x82 ∨ s.write.getD 1 0 = 0x81)) ↔
      s.front = [] ∨ [0x30, 0x81] <+: s.front := by
  have hfirst := s.first
  rw [write]
  match s.front, hfirst with
  | [], _ => simp
  | [b], _ => simp
  | b :: c :: front, hfirst =>
    have hnone : ¬ (b = 0x30 ∧ c = 0x82) := hfirst 0 (by simp)
    simp only [List.cons_append, List.getD_cons_zero, List.getD_cons_succ, List.cons_prefix_cons, List.nil_prefix]
    constructor
    · rintro ⟨hb, hc | hc⟩
      · exact absurd ⟨hb, hc⟩ hnone
      · exact .inr ⟨hb.symm, hc.symm, trivial⟩
    · rintro (hnil | ⟨hb, hc, -⟩)
      · cases hnil
      · exact ⟨hb.symm, .inr hc.symm⟩

/-- The other reader keeps what follows, and the whole of a blob that starts like a certificate of one length byte. -/
theorem normalizeBlobToDer_write (s : StoreBlob) : normalizeBlobToDer s.write =
    if [0x30, 0x81] <+: s.front then s.write else s.cert ++ s.trailer := by
  have hlen := s.write_length
  have hbody := s.body_long
  have hfront := s.front_length
  have hlimit : (if s.write.length < 64 then s.write.length else 64) = 64 := if_neg (by omega)
  rw [normalizeBlobToDer, if_neg (by omega), hlimit]
  by_cases hfast : s.front = [] ∨ [0x30, 0x81] <+: s.front
  · rw [if_pos (s.fast_path.2 hfast)]
    split_ifs with hprefix
    · rfl
    · have hnil : s.front = [] := hfast.resolve_right hprefix
      rw [← s.drop_write, hnil]
      rfl
  · obtain ⟨hne, hprefix⟩ := not_or.mp hfast
    have hpos := List.length_pos_iff.mpr hne
    have hskip : sequenceScan s.write 64 1 = sequenceScan s.write 64 (1 + (s.front.length - 1)) :=
      sequenceScan_skip (fun j _ hj => s.first j (by omega)) (by omega)
    have hat : s.write.getD s.front.length 0 = 0x30 ∧ s.write.getD (s.front.length + 1) 0 = 0x82 := by
      rw [write, List.getD_append_right _ _ _ _ (le_refl _), List.getD_append_right _ _ _ _ (Nat.le_add_right _ 1),
        Nat.sub_self, Nat.add_sub_cancel_left]
      exact ⟨rfl, rfl⟩
    rw [Nat.add_sub_cancel' hpos] at hskip
    rw [if_neg (mt s.fast_path.1 hfast), if_neg hprefix, ← s.drop_write]
    refine hskip.trans ?_
    rw [sequenceScan, if_pos (by omega)]
    exact if_pos hat

/-- Both readers cut out the certificate exactly where nothing follows it and the blob does not start like one of
a single length byte. -/
theorem cutAlike_iff (s : StoreBlob) : s.CutAlike ↔ s.trailer = [] ∧ ¬ [0x30, 0x81] <+: s.front := by
  rw [CutAlike, s.extractDerCertificate_write, s.normalizeBlobToDer_write]
  split_ifs with hprefix
  · refine iff_of_false ?_ fun h => h.2 hprefix
    rintro ⟨-, hcert⟩
    have hfront := hprefix.length_le
    have hlen := congrArg List.length hcert
    rw [s.write_length] at hlen
    simp only [cert, List.length_cons, List.length_nil] at hlen hfront
    omega
  · rw [List.append_right_eq_self]
    exact ⟨fun h => ⟨h.2, hprefix⟩, fun h => ⟨rfl, h.1⟩⟩

end StoreBlob

/-- A certificate of 68 bytes with a byte behind it. -/
def trailedBlob : StoreBlob where
  front := []
  hi := 0
  lo := 64
  body := List.replicate 64 0
  trailer := [0]
  body_length := by decide
  body_long := by decide
  front_length := by decide
  first _ h := absurd h (Nat.not_lt_zero _)

/-- The same certificate is sent a second time with its trailing byte. -/
theorem trailing_byte_kept :
    extractDerCertificate trailedBlob.write = trailedBlob.cert ∧
      normalizeBlobToDer trailedBlob.write = trailedBlob.cert ++ [0] ∧
      mergeIntermediates id [trailedBlob.cert] (readWindowsTpmIntermediateStore (fun _ => true) [trailedBlob.write]) =
        [trailedBlob.cert, trailedBlob.cert ++ [0]] ∧
      ¬ ∀ s : StoreBlob, s.CutAlike := by
  refine ⟨by decide, ?_, ?_, fun h => ?_⟩
  · decide
  · decide
  · exact absurd (trailedBlob.cutAlike_iff.1 (h trailedBlob)).1 (by decide)

end Blobs
end RootHerald.Windows
