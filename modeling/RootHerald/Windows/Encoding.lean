import RootHerald.Lib.Base64
import Mathlib.Data.List.DropRight
import Mathlib.Tactic.IntervalCases
import Mathlib.Tactic.Tauto

/-! Encodings and the device id of the Windows client. SHA-1 is the system's: it answers no bytes
when the provider fails. -/
namespace RootHerald.Windows
open Lib

/-- Trailing NUL, LF and CR are dropped from what CryptBinaryToStringA writes. -/
def base64Encode (data : Bytes) : Bytes :=
  (Base64.encode data).rdropWhile fun c => c = 0 || c = '\n'.toUInt8 || c = '\r'.toUInt8

def pemHeader : Bytes := text "-----BEGIN CERTIFICATE-----\n"
def pemFooter : Bytes := text "\n-----END CERTIFICATE-----"

def derToPem (der : Bytes) : Bytes := pemHeader ++ base64Encode der ++ pemFooter

theorem base64Encode_eq (data : Bytes) : base64Encode data = Base64.encode data := by
  refine List.rdropWhile_eq_self_iff.mpr fun hne => ?_
  refine Base64.encode_all (p := fun c => ¬ (c = 0 || c = '\n'.toUInt8 || c = '\r'.toUInt8) = true) ?_ ?_
    (List.getLast_mem hne)
  · decide
  · decide

section Pem

/-- The certificate between header and footer. -/
def pemToDer (pem : Bytes) : Option Bytes :=
  let body := (pem.drop pemHeader.length).take (pem.length - (pemHeader.length + pemFooter.length))
  if pem = pemHeader ++ body ++ pemFooter then Base64.decode body else none

theorem pemToDer_derToPem (der : Bytes) : pemToDer (derToPem der) = some der := by
  have hbody : ((derToPem der).drop pemHeader.length).take
      ((derToPem der).length - (pemHeader.length + pemFooter.length)) = base64Encode der := by
    have hlen : (derToPem der).length - (pemHeader.length + pemFooter.length) = (base64Encode der).length := by
      simp only [derToPem, List.length_append]
      omega
    rw [hlen, derToPem, List.append_assoc, List.drop_left, List.take_left]
  simp only [pemToDer, hbody]
  rw [if_pos (by rw [derToPem]), base64Encode_eq, Base64.decode_encode]

end Pem

section DeviceId
variable (sha1 : Bytes → Bytes)

def kNamespace : Bytes :=
  [0x52, 0x6F, 0x6F, 0x74, 0x48, 0x65, 0x72, 0x61, 0x6C, 0x64, 0x44, 0x65, 0x76, 0x49, 0x44, 0x76]

/-- The first 16 bytes of a digest, with version 5 and the RFC 4122 variant. -/
def guidBytes (digest : Bytes) : Bytes :=
  let b := digest.take 16
  let b := b.set 6 ((b.getD 6 0 &&& 0x0F) ||| 0x50)
  b.set 8 ((b.getD 8 0 &&& 0x3F) ||| 0x80)

/-- The first three groups are byte-swapped. -/
def guidText (b : Bytes) : Bytes :=
  let group (is : List Nat) := hexEncode (is.map fun i => b.getD i 0)
  group [3, 2, 1, 0] ++ text "-" ++ group [5, 4] ++ text "-" ++ group [7, 6] ++ text "-" ++ group [8, 9] ++
    text "-" ++ group [10, 11, 12, 13, 14, 15]

def computeDeviceIdFromFingerprint (fingerprint : Bytes) : Bytes :=
  if fingerprint.length ≠ 32 then []
  else
    let digest := sha1 (kNamespace ++ fingerprint)
    if digest.length < 16 then [] else guidText (guidBytes digest)

theorem guidBytes_length {digest : Bytes} (h : 16 ≤ digest.length) : (guidBytes digest).length = 16 := by
  simp only [guidBytes, List.length_set, List.length_take]
  omega

/-- The text of an id determines its bytes. -/
theorem guidText_injective {b c : Bytes} (hb : b.length = 16) (hc : c.length = 16) (h : guidText b = guidText c) :
    b = c := by
  simp only [guidText] at h
  obtain ⟨h, h₄⟩ := List.append_inj h (by simp)
  obtain ⟨h, -⟩ := List.append_inj h (by simp)
  obtain ⟨h, h₃⟩ := List.append_inj h (by simp)
  obtain ⟨h, -⟩ := List.append_inj h (by simp)
  obtain ⟨h, h₂⟩ := List.append_inj h (by simp)
  obtain ⟨h, -⟩ := List.append_inj h (by simp)
  obtain ⟨h, h₁⟩ := List.append_inj h (by simp)
  obtain ⟨h₀, -⟩ := List.append_inj h (by simp)
  have hgroups : ∀ i ∈ [3, 2, 1, 0] ++ [5, 4] ++ [7, 6] ++ [8, 9] ++ [10, 11, 12, 13, 14, 15],
      b.getD i 0 = c.getD i 0 := by
    simp only [List.forall_mem_append]
    exact ⟨⟨⟨⟨List.map_inj_left.mp (hexEncode_injective h₀), List.map_inj_left.mp (hexEncode_injective h₁)⟩,
      List.map_inj_left.mp (hexEncode_injective h₂)⟩, List.map_inj_left.mp (hexEncode_injective h₃)⟩,
      List.map_inj_left.mp (hexEncode_injective h₄)⟩
  refine List.ext_getElem (hb.trans hc.symm) fun i hi _ => ?_
  rw [hb] at hi
  rw [← List.getD_eq_getElem b 0, ← List.getD_eq_getElem c 0]
  have hindex : ∀ i < 16, i ∈ [3, 2, 1, 0] ++ [5, 4] ++ [7, 6] ++ [8, 9] ++ [10, 11, 12, 13, 14, 15] := by decide
  exact hgroups i (hindex i hi)

variable {sha1}

/-- Ids of two fingerprints agree only if the bytes kept of their digests do. -/
theorem computeDeviceId_inj (hsha1 : ∀ data, 16 ≤ (sha1 data).length) {fp fp' : Bytes} (hfp : fp.length = 32)
    (hfp' : fp'.length = 32) (h : computeDeviceIdFromFingerprint sha1 fp = computeDeviceIdFromFingerprint sha1 fp') :
    guidBytes (sha1 (kNamespace ++ fp)) = guidBytes (sha1 (kNamespace ++ fp')) := by
  have heq : ∀ {fp}, fp.length = 32 →
      computeDeviceIdFromFingerprint sha1 fp = guidText (guidBytes (sha1 (kNamespace ++ fp))) := by
    intro fp hfp
    simp only [computeDeviceIdFromFingerprint]
    rw [if_neg (not_not.mpr hfp), if_neg (not_lt.mpr (hsha1 _))]
  rw [heq hfp, heq hfp'] at h
  exact guidText_injective (guidBytes_length (hsha1 _)) (guidBytes_length (hsha1 _)) h

end DeviceId
end RootHerald.Windows
