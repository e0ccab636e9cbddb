import RootHerald.Lib.Fields
import RootHerald.Windows.EkIdentity

/-! The modulus of an endorsement key blob against the format of the blob. The offset of the modulus is summed in
32 bits, so that a huge exponent length leads back into the front of the blob. -/
namespace RootHerald.Windows
open Lib

section Format

/-- BCRYPT_RSAKEY_BLOB. -/
structure RsaKeyBlob where
  bitLength : UInt32
  cbPrime1 : UInt32
  cbPrime2 : UInt32
  publicExponent : Bytes
  modulus : Bytes
  trailing : Bytes
  publicExponent_length : publicExponent.length < 2 ^ 32
  modulus_length : 1 ≤ modulus.length ∧ modulus.length ≤ 1024

/-- The words of the header, and the two numbers behind it. -/
def RsaKeyBlob.write (k : RsaKeyBlob) : Bytes :=
  bytes32 kBcryptRsaPublicMagic ++ (bytes32 k.bitLength ++ (bytes32 (UInt32.ofNat k.publicExponent.length) ++
    (bytes32 (UInt32.ofNat k.modulus.length) ++ (bytes32 k.cbPrime1 ++ (bytes32 k.cbPrime2 ++
      (k.publicExponent ++ (k.modulus ++ k.trailing)))))))

def cbPublicExp (blob : Bytes) : Nat := (readU32Le blob 8).toNat

def cbModulus (blob : Bytes) : Nat := (readU32Le blob 12).toNat

/-- A header of a public key with a modulus of a length that is accepted. -/
def HasRsaHeader (blob : Bytes) : Prop :=
  24 ≤ blob.length ∧ readU32Le blob 0 = kBcryptRsaPublicMagic ∧ 1 ≤ cbModulus blob ∧ cbModulus blob ≤ 1024

/-- Both numbers lie inside the blob. -/
def IsRsaKeyBlob (blob : Bytes) : Prop := HasRsaHeader blob ∧ 24 + cbPublicExp blob + cbModulus blob ≤ blob.length

instance (blob : Bytes) : Decidable (HasRsaHeader blob) := inferInstanceAs (Decidable (_ ∧ _ ∧ _ ∧ _))

instance (blob : Bytes) : Decidable (IsRsaKeyBlob blob) := inferInstanceAs (Decidable (_ ∧ _))

def modulusAt (blob : Bytes) (modOffset : Nat) : Bytes := (blob.drop modOffset).take (cbModulus blob)

/-- A modulus is found exactly in a key blob, and it is the one of the format. -/
def ModulusOfFormat (blob : Bytes) : Prop :=
  (extractRsaModulusFromEkPub blob ≠ [] ↔ IsRsaKeyBlob blob) ∧
    (IsRsaKeyBlob blob → extractRsaModulusFromEkPub blob = modulusAt blob (24 + cbPublicExp blob))

instance (blob : Bytes) : Decidable (ModulusOfFormat blob) := inferInstanceAs (Decidable (_ ∧ _))

end Format

section Extraction
variable {blob : Bytes}

theorem extractRsaModulus_header (h : HasRsaHeader blob) : extractRsaModulusFromEkPub blob =
    if blob.length < (24 + cbPublicExp blob) % 2 ^ 32 + cbModulus blob then []
    else modulusAt blob ((24 + cbPublicExp blob) % 2 ^ 32) := by
  obtain ⟨hlen, hmagic, hpos, hmax⟩ := h
  have hlengths : ¬ (readU32Le blob 12 = 0 ∨ 1024 < readU32Le blob 12) := by
    rintro (hzero | hlarge)
    · rw [cbModulus, hzero] at hpos
      exact absurd hpos (by decide)
    · exact absurd hlarge (UInt32.not_lt.mpr hmax)
  rw [extractRsaModulusFromEkPub, if_neg (not_lt.mpr hlen)]
  simp only
  rw [if_neg (not_not.mpr hmagic), if_neg hlengths]
  rfl

theorem extractRsaModulus_no_header (h : ¬ HasRsaHeader blob) : extractRsaModulusFromEkPub blob = [] := by
  rw [extractRsaModulusFromEkPub]
  by_cases hlen : blob.length < 24
  · exact if_pos hlen
  by_cases hmagic : readU32Le blob 0 = kBcryptRsaPublicMagic
  · have hlengths : readU32Le blob 12 = 0 ∨ 1024 < readU32Le blob 12 := by
      by_contra hlengths
      obtain ⟨hne, hmax⟩ := not_or.mp hlengths
      refine h ⟨not_lt.mp hlen, hmagic, ?_, UInt32.not_lt.mp hmax⟩
      exact Nat.pos_of_ne_zero fun hzero => hne (UInt32.toNat_inj.mp hzero)
    simp only
    rw [if_neg hlen, if_neg (not_not.mpr hmagic), if_pos hlengths]
  · simp only
    rw [if_neg hlen, if_pos hmagic]

/-- A header leads to a modulus exactly where the modulus lies inside the blob. -/
theorem extractRsaModulus_found_iff (h : HasRsaHeader blob) : extractRsaModulusFromEkPub blob ≠ [] ↔
    (24 + cbPublicExp blob) % 2 ^ 32 + cbModulus blob ≤ blob.length := by
  have hpos := h.2.2.1
  rw [extractRsaModulus_header h, ← List.length_pos_iff]
  split_ifs with hends
  · exact iff_of_false (Nat.lt_irrefl 0) (not_le.mpr hends)
  · refine iff_of_true ?_ (not_lt.mp hends)
    rw [modulusAt, List.length_take, List.length_drop]
    omega

/-- The result is that of the format unless a sum that wraps leads to bytes inside the blob, which are not those
of the modulus. -/
theorem modulusOfFormat_iff (blob : Bytes) : ModulusOfFormat blob ↔
    (HasRsaHeader blob → 2 ^ 32 ≤ 24 + cbPublicExp blob →
      24 + cbPublicExp blob - 2 ^ 32 + cbModulus blob ≤ blob.length →
      IsRsaKeyBlob blob ∧ modulusAt blob (24 + cbPublicExp blob - 2 ^ 32) = modulusAt blob (24 + cbPublicExp blob)) := by
  by_cases hheader : HasRsaHeader blob
  · have hblob : IsRsaKeyBlob blob ↔ 24 + cbPublicExp blob + cbModulus blob ≤ blob.length := and_iff_right hheader
    have hexp : cbPublicExp blob < 2 ^ 32 := (readU32Le blob 8).toNat_lt
    rw [ModulusOfFormat, extractRsaModulus_found_iff hheader, hblob, extractRsaModulus_header hheader]
    by_cases hwraps : 2 ^ 32 ≤ 24 + cbPublicExp blob
    · have hoffset : (24 + cbPublicExp blob) % 2 ^ 32 = 24 + cbPublicExp blob - 2 ^ 32 := by omega
      -- what lies inside the blob without wrapping lies inside it where the sum wraps
      have hinside : 24 + cbPublicExp blob + cbModulus blob ≤ blob.length →
          24 + cbPublicExp blob - 2 ^ 32 + cbModulus blob ≤ blob.length := fun h => by omega
      rw [hoffset]
      constructor
      · rintro ⟨hiff, hsame⟩ - - hfits
        have hmodulus := hsame (hiff.mp hfits)
        rw [if_neg (not_lt.mpr hfits)] at hmodulus
        exact ⟨hiff.mp hfits, hmodulus⟩
      · intro h
        refine ⟨⟨fun hfits => (h hheader hwraps hfits).1, hinside⟩, fun hwhole => ?_⟩
        rw [if_neg (not_lt.mpr (hinside hwhole))]
        exact (h hheader hwraps (hinside hwhole)).2
    · have hoffset : (24 + cbPublicExp blob) % 2 ^ 32 = 24 + cbPublicExp blob := Nat.mod_eq_of_lt (not_le.mp hwraps)
      rw [hoffset]
      exact iff_of_true ⟨Iff.rfl, fun hwhole => if_neg (not_lt.mpr hwhole)⟩ fun _ h => absurd h hwraps
  · rw [ModulusOfFormat, extractRsaModulus_no_header hheader]
    exact iff_of_true ⟨iff_of_false (not_not.mpr rfl) fun h => hheader h.1, fun h => absurd h.1 hheader⟩
      fun h => absurd h hheader

end Extraction

section Encoding

private theorem readU32Le_append {q rest : Bytes} {v : UInt32} {i : Nat} (hq : q.length = i) :
    readU32Le (q ++ (bytes32 v ++ rest)) i = v := by
  obtain ⟨b₀, b₁, b₂, b₃, hbytes, hvalue⟩ := bytes32_eq v
  have hat : ∀ k, (q ++ (bytes32 v ++ rest)).getD (i + k) 0 = ([b₀, b₁, b₂, b₃] ++ rest).getD k 0 := by
    intro k
    rw [hbytes, ← hq, List.getD_append_right _ _ _ _ (Nat.le_add_right _ _), Nat.add_sub_cancel_left]
  rw [readU32Le, hat 1, hat 2, hat 3, ← Nat.add_zero i, hat 0]
  exact hvalue

namespace RsaKeyBlob
variable (k : RsaKeyBlob)

theorem cbPublicExp_write : cbPublicExp k.write = k.publicExponent.length := by
  have hword : readU32Le k.write 8 = UInt32.ofNat k.publicExponent.length := by
    rw [write, ← List.append_assoc]
    exact readU32Le_append (by simp)
  rw [cbPublicExp, hword]
  exact UInt32.toNat_ofNat_of_lt' k.publicExponent_length

theorem cbModulus_write : cbModulus k.write = k.modulus.length := by
  have hword : readU32Le k.write 12 = UInt32.ofNat k.modulus.length := by
    rw [write, ← List.append_assoc, ← List.append_assoc]
    exact readU32Le_append (by simp)
  rw [cbModulus, hword]
  exact UInt32.toNat_ofNat_of_lt' (lt_of_le_of_lt k.modulus_length.2 (by decide))

theorem drop_write : k.write.drop 24 = k.publicExponent ++ (k.modulus ++ k.trailing) := by
  simp only [write, ← List.append_assoc]
  rw [List.append_assoc, List.append_assoc, List.append_assoc k.publicExponent]
  exact List.drop_left' (by simp)

theorem isRsaKeyBlob_write : IsRsaKeyBlob k.write := by
  have hlen := congrArg List.length k.drop_write
  have hheader : 24 ≤ k.write.length := by
    simp only [write, List.length_append, bytes32_length]
    omega
  rw [List.length_drop, List.length_append, List.length_append] at hlen
  have hmagic : readU32Le k.write 0 = kBcryptRsaPublicMagic := by
    rw [write, ← List.nil_append (bytes32 kBcryptRsaPublicMagic ++ _)]
    exact readU32Le_append List.length_nil
  have hends : 24 + k.publicExponent.length + k.modulus.length ≤ k.write.length := by omega
  rw [IsRsaKeyBlob, HasRsaHeader, k.cbPublicExp_write, k.cbModulus_write]
  exact ⟨⟨hheader, hmagic, k.modulus_length⟩, hends⟩

theorem modulusAt_write : modulusAt k.write (24 + cbPublicExp k.write) = k.modulus := by
  rw [modulusAt, ← List.drop_drop, drop_write, cbPublicExp_write, cbModulus_write, List.drop_left, List.take_left]

end RsaKeyBlob

/-- The result is that of the format, and the modulus of an encoding, unless the offset wraps to other bytes of
the blob. -/
theorem extractRsaModulus_iff (blob : Bytes) (k : RsaKeyBlob) :
    (ModulusOfFormat blob ↔
      (HasRsaHeader blob → 2 ^ 32 ≤ 24 + cbPublicExp blob →
        24 + cbPublicExp blob - 2 ^ 32 + cbModulus blob ≤ blob.length →
        IsRsaKeyBlob blob ∧ modulusAt blob (24 + cbPublicExp blob - 2 ^ 32) = modulusAt blob (24 + cbPublicExp blob))) ∧
    (extractRsaModulusFromEkPub k.write = k.modulus ↔
      (2 ^ 32 ≤ 24 + k.publicExponent.length →
        modulusAt k.write (24 + k.publicExponent.length - 2 ^ 32) = k.modulus)) := by
  refine ⟨modulusOfFormat_iff blob, ?_⟩
  have hblob := k.isRsaKeyBlob_write
  have hne : k.modulus ≠ [] := List.ne_nil_of_length_pos k.modulus_length.1
  have hformat : ModulusOfFormat k.write ↔ extractRsaModulusFromEkPub k.write = k.modulus := by
    rw [ModulusOfFormat, k.modulusAt_write]
    constructor
    · rintro ⟨-, hsame⟩
      exact hsame hblob
    · intro hsame
      exact ⟨iff_of_true (hsame ▸ hne) hblob, fun _ => hsame⟩
  rw [← hformat, modulusOfFormat_iff, k.modulusAt_write, k.cbPublicExp_write]
  constructor
  · intro h hwraps
    have hfits := hblob.2
    rw [k.cbPublicExp_write] at hfits
    exact (h hblob.1 hwraps (by omega)).2
  · intro h _ hwraps _
    exact ⟨hblob, h hwraps⟩

/-- An exponent length that leads back to the front of the blob. -/
def wrappedBlob : Bytes :=
  bytes32 kBcryptRsaPublicMagic ++ bytes32 2048 ++ bytes32 0xFFFFFFE8 ++ bytes32 4 ++ bytes32 0 ++ bytes32 0

/-- Its magic is taken for a modulus. -/
theorem magic_taken_for_modulus :
    extractRsaModulusFromEkPub wrappedBlob = bytes32 kBcryptRsaPublicMagic ∧ ¬ IsRsaKeyBlob wrappedBlob ∧
      ¬ ∀ blob, ModulusOfFormat blob := by
  refine ⟨by decide, by decide, fun h => ?_⟩
  exact absurd (h wrappedBlob) (by decide)

end Encoding
end RootHerald.Windows
