import RootHerald.Lib.Guid
import RootHerald.Windows.Encoding

/-! The text of a device id, read as the identifier whose bytes are those kept of the digest. -/
namespace RootHerald.Windows
open Lib

section Bytes

private theorem mask_or (b k v : Nat) : (b &&& 2 ^ k - 1) ||| 2 ^ k * v = 2 ^ k * v + b % 2 ^ k := by
  rw [Nat.and_two_pow_sub_one_eq_mod, Nat.or_comm,
    Nat.two_pow_add_eq_or_of_lt (Nat.mod_lt b (Nat.two_pow_pos k)) v]

private theorem version_byte (b : UInt8) : ((b &&& 0x0F) ||| 0x50).toNat = 5 * 16 + b.toNat % 16 := by
  rw [UInt8.toNat_or, UInt8.toNat_and]
  exact mask_or b.toNat 4 5

private theorem variant_byte (b : UInt8) : ((b &&& 0x3F) ||| 0x80).toNat = 2 * 64 + b.toNat % 64 := by
  rw [UInt8.toNat_or, UInt8.toNat_and]
  exact mask_or b.toNat 6 2

/-- The bytes of an id are those of the digest, up to the version and the variant. -/
theorem guidBytes_getD {digest : Bytes} (h : 16 ≤ digest.length) {i : Nat} (hi : i < 16) :
    ((guidBytes digest).getD i 0).toNat =
      if i = 6 then 5 * 16 + (digest.getD 6 0).toNat % 16
      else if i = 8 then 2 * 64 + (digest.getD 8 0).toNat % 64
      else (digest.getD i 0).toNat := by
  have htake : ∀ j < 16, (digest.take 16)[j]? = digest[j]? := fun j hj => List.getElem?_take_of_lt hj
  have hlen : (digest.take 16).length = 16 := List.length_take_of_le h
  simp only [guidBytes, List.getD_eq_getElem?_getD, List.getElem?_set, List.length_set, hlen, htake i hi,
    htake 6 (by decide), htake 8 (by decide)]
  by_cases hvariant : i = 8
  · subst hvariant
    rw [if_pos rfl, if_pos (by decide), Option.getD_some, variant_byte]
    rfl
  · rw [if_neg (Ne.symm hvariant), if_neg hvariant]
    by_cases hversion : i = 6
    · subst hversion
      rw [if_pos rfl, if_pos (by decide), if_pos rfl, Option.getD_some, version_byte]
    · rw [if_neg (Ne.symm hversion), if_neg hversion]

end Bytes

section Text

private theorem beBytes_leNat (bs : Bytes) : beBytes bs.length (leNat bs) = bs.reverse := by
  rw [beBytes, leBytes_leNat]

private theorem long_group (a b c d : UInt8) : beBytes 4 (UInt32.ofNat (leNat [a, b, c, d])).toNat = [d, c, b, a] := by
  have hlt : leNat [a, b, c, d] < UInt32.size := Nat.lt_of_lt_of_eq (leNat_lt [a, b, c, d]) (show 256 ^ 4 = UInt32.size by decide)
  rw [UInt32.toNat_ofNat_of_lt' hlt]
  exact beBytes_leNat [a, b, c, d]

private theorem short_group (a b : UInt8) : beBytes 2 (UInt16.ofNat (leNat [a, b])).toNat = [b, a] := by
  have hlt : leNat [a, b] < UInt16.size := Nat.lt_of_lt_of_eq (leNat_lt [a, b]) (show 256 ^ 2 = UInt16.size by decide)
  rw [UInt16.toNat_ofNat_of_lt' hlt]
  exact beBytes_leNat [a, b]

theorem guidText_eq_format {b : Bytes} (hb : b.length = 16) : guidText b = (Guid.ofByteArray b hb).format := by
  have hdash : text "-" = [Guid.dash] := by decide
  match b, hb with
  | [b₀, b₁, b₂, b₃, b₄, b₅, b₆, b₇, b₈, b₉, b₁₀, b₁₁, b₁₂, b₁₃, b₁₄, b₁₅], hb =>
    have h₁ := long_group b₀ b₁ b₂ b₃
    have h₂ := short_group b₄ b₅
    have h₃ := short_group b₆ b₇
    rw [Guid.format, Guid.ofByteArray]
    simp only [List.take_succ_cons, List.take_zero, List.drop_succ_cons, List.drop_zero, h₁, h₂, h₃]
    rw [guidText, hdash]
    simp only [List.append_assoc, List.cons_append, List.nil_append]
    rfl

end Text

section DeviceId
variable {sha1 : Bytes → Bytes}

theorem computeDeviceId_eq (hsha1 : ∀ data, 16 ≤ (sha1 data).length) {fp : Bytes} (hfp : fp.length = 32) :
    computeDeviceIdFromFingerprint sha1 fp =
      (Guid.ofByteArray (guidBytes (sha1 (kNamespace ++ fp))) (guidBytes_length (hsha1 _))).format := by
  rw [computeDeviceIdFromFingerprint, if_neg (not_not.mpr hfp)]
  simp only
  rw [if_neg (not_lt.mpr (hsha1 _)), guidText_eq_format (guidBytes_length (hsha1 _))]

/-- The id of a fingerprint is the text of an identifier that stores the first 16 bytes of the digest with
the version and the variant set, so that two ids agree exactly where these bytes do. -/
theorem deviceId_identifies (sha1 : Bytes → Bytes) (hsha1 : ∀ data, (sha1 data).length = 20) :
    (∀ fp, fp.length = 32 →
      let digest := sha1 (kNamespace ++ fp)
      let deviceId := computeDeviceIdFromFingerprint sha1 fp
      Guid.IsText deviceId ∧ (Guid.parse deviceId).map (·.toByteArray) = some (guidBytes digest) ∧
        (guidBytes digest).length = 16 ∧ ∀ i < 16, ((guidBytes digest).getD i 0).toNat =
          if i = 6 then 5 * 16 + (digest.getD 6 0).toNat % 16
          else if i = 8 then 2 * 64 + (digest.getD 8 0).toNat % 64
          else (digest.getD i 0).toNat) ∧
    (∀ fp fp', fp.length = 32 → fp'.length = 32 →
      (computeDeviceIdFromFingerprint sha1 fp = computeDeviceIdFromFingerprint sha1 fp' ↔
        guidBytes (sha1 (kNamespace ++ fp)) = guidBytes (sha1 (kNamespace ++ fp')))) ∧
    ∀ fp, fp.length ≠ 32 → computeDeviceIdFromFingerprint sha1 fp = [] := by
  have hlong : ∀ data, 16 ≤ (sha1 data).length := fun data => by rw [hsha1]; decide
  refine ⟨?_, ?_, ?_⟩
  · intro fp hfp
    have hid := computeDeviceId_eq hlong hfp
    have hlen := guidBytes_length (hlong (kNamespace ++ fp))
    refine ⟨hid ▸ Guid.isText_format _, ?_, hlen, ?_⟩
    · rw [hid, Guid.parse_format, Option.map_some, Guid.toByteArray_ofByteArray]
    · exact fun i hi => guidBytes_getD (hlong _) hi
  · intro fp fp' hfp hfp'
    constructor
    · exact computeDeviceId_inj hlong hfp hfp'
    · intro hbytes
      simp only [computeDeviceId_eq hlong hfp, computeDeviceId_eq hlong hfp', hbytes]
  · intro fp hfp
    rw [computeDeviceIdFromFingerprint, if_pos hfp]

/-- A digest of twenty equal bytes. -/
theorem deviceId_identifies_sample :
    let sha1 : Bytes → Bytes := fun _ => List.replicate 20 0xFF
    computeDeviceIdFromFingerprint sha1 (List.replicate 32 0) = text "ffffffff-ffff-ff5f-bfff-ffffffffffff" ∧
      Guid.IsText (computeDeviceIdFromFingerprint sha1 (List.replicate 32 0)) :=
  ⟨by decide +kernel, ((deviceId_identifies (fun _ => List.replicate 20 0xFF) (fun _ => rfl)).1 (List.replicate 32 0) rfl).1⟩

end DeviceId
end RootHerald.Windows
