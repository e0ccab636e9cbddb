import RootHerald.Lib.Buffers
import RootHerald.Linux.Base64Codec

/-! The base64 encoder with its destination, and the PEM text of a certificate. Lengths are size_t. -/
namespace RootHerald.Linux
open Lib

section Definitions

/-- Return value and buffer. Without room the wanted length is returned without a write. -/
def base64EncodeTo (src dst : Bytes) : Checked (Nat × Bytes) := do
  let needed := (4 * ((src.length + 2) % 2 ^ 64 / 3) + 1) % 2 ^ 64
  if dst.length < needed then return (needed, dst)
  let out := base64EncodeLoop src
  let dst ← writeRange dst 0 out
  return (out.length, ← writeRange dst out.length [0])

def certificateHeader : Bytes := text "-----BEGIN CERTIFICATE-----\n"
def certificateFooter : Bytes := text "\n-----END CERTIFICATE-----"

/-- Return value and buffer. -/
def derToPem (der pem : Bytes) : Checked (Int × Bytes) := do
  let b64Len := 4 * ((der.length + 2) % 2 ^ 64 / 3) % 2 ^ 64
  let needed := (certificateHeader.length + b64Len + certificateFooter.length + 1) % 2 ^ 64
  if pem.length < needed then return (-1, pem)
  let pem ← writeRange pem 0 certificateHeader
  let off := certificateHeader.length
  let (_, body) ← base64EncodeTo der (pem.drop off)
  let pem := pem.take off ++ body
  let off := off + b64Len
  let pem ← writeRange pem off certificateFooter
  return (0, ← writeRange pem (off + certificateFooter.length) [0])

end Definitions

section Encoder

/-- The encoder fills a destination with room for the text and its terminator. -/
theorem base64EncodeTo_fits {src dst : Bytes} (hlen : dst.length < 2 ^ 64)
    (h : 4 * ((src.length + 2) / 3) + 1 ≤ dst.length) :
    base64EncodeTo src dst =
      .ok ((Base64.encode src).length, Base64.encode src ++ 0 :: dst.drop ((Base64.encode src).length + 1)) := by
  have hsrc : (src.length + 2) % 2 ^ 64 = src.length + 2 := Nat.mod_eq_of_lt (by omega)
  have hneeded : (4 * ((src.length + 2) / 3) + 1) % 2 ^ 64 = 4 * ((src.length + 2) / 3) + 1 :=
    Nat.mod_eq_of_lt (by omega)
  have hroom : (Base64.encode src).length < dst.length := by
    rw [Base64.length_encode]
    exact h
  have hwrite := writeRange_append [] (Base64.encode src) dst (Nat.le_of_lt hroom)
  have hterminated := writeRange_terminated [] (Base64.encode src) dst hroom
  rw [List.nil_append, List.length_nil, Nat.zero_add, List.nil_append] at hterminated
  rw [List.nil_append, List.length_nil, List.nil_append] at hwrite
  rw [hwrite, ok_bind] at hterminated
  rw [base64EncodeTo, hsrc, hneeded, if_neg (not_lt.mpr h), base64EncodeLoop_eq]
  simp only [hwrite, ok_bind, hterminated]
  rfl

/-- What is written is the text of the encoder that keeps its destination apart. -/
theorem base64Encode_eq_text {src dst : Bytes} {out : Bytes} (hlen : dst.length < 2 ^ 64)
    (h : base64Encode src dst.length = .ok out) :
    base64EncodeTo src dst = .ok (out.length, out ++ 0 :: dst.drop (out.length + 1)) := by
  rw [base64Encode] at h
  split_ifs at h with hshort
  cases h
  rw [base64EncodeTo_fits hlen (not_lt.mp hshort), base64EncodeLoop_eq]

end Encoder

section Pem

theorem derToPem_fits {der pem : Bytes} (hlen : pem.length < 2 ^ 64)
    (h : certificateHeader.length + 4 * ((der.length + 2) / 3) + certificateFooter.length + 1 ≤ pem.length) :
    derToPem der pem = .ok (0, certificateHeader ++ Base64.encode der ++ certificateFooter ++
      0 :: pem.drop (certificateHeader.length + 4 * ((der.length + 2) / 3) + certificateFooter.length + 1)) := by
  have hder : (der.length + 2) % 2 ^ 64 = der.length + 2 := Nat.mod_eq_of_lt (by omega)
  have hb64 : 4 * ((der.length + 2) / 3) % 2 ^ 64 = 4 * ((der.length + 2) / 3) := Nat.mod_eq_of_lt (by omega)
  have hneeded : (certificateHeader.length + 4 * ((der.length + 2) / 3) + certificateFooter.length + 1) % 2 ^ 64 =
      certificateHeader.length + 4 * ((der.length + 2) / 3) + certificateFooter.length + 1 :=
    Nat.mod_eq_of_lt (by omega)
  have hheader := writeRange_append [] certificateHeader pem (by omega)
  rw [List.nil_append, List.length_nil, List.nil_append] at hheader
  have hbody : base64EncodeTo der (pem.drop certificateHeader.length) = _ := base64EncodeTo_fits
    (by rw [List.length_drop]; omega) (by rw [List.length_drop]; omega)
  have hencoded := Base64.length_encode der
  -- the footer overwrites the terminator of the encoder
  have hfooter := writeRange_append (certificateHeader ++ Base64.encode der) certificateFooter
    (0 :: (pem.drop certificateHeader.length).drop ((Base64.encode der).length + 1))
    (by rw [List.length_cons, List.length_drop, List.length_drop]; omega)
  have hend := writeRange_terminated (certificateHeader ++ Base64.encode der) certificateFooter
    (0 :: (pem.drop certificateHeader.length).drop ((Base64.encode der).length + 1))
    (by rw [List.length_cons, List.length_drop, List.length_drop]; omega)
  rw [hfooter, ok_bind] at hend
  rw [List.length_append, hencoded] at hfooter hend
  rw [hencoded] at hbody
  rw [derToPem, hder, hb64, hneeded, if_neg (not_lt.mpr h)]
  simp only [hheader, ok_bind, List.drop_left, List.take_left, hbody, ← List.append_assoc]
  rw [hfooter, ok_bind, hend, ok_bind, pure_eq_ok, List.drop_succ_cons, List.drop_drop, List.drop_drop]
  have hoffset : certificateHeader.length + (4 * ((der.length + 2) / 3) + 1 + certificateFooter.length) =
      certificateHeader.length + 4 * ((der.length + 2) / 3) + certificateFooter.length + 1 := by omega
  rw [hoffset]

end Pem

section RoundTrip

/-- The encoder writes the characters of the alphabet and a terminator, the decoder gives the bytes back, and so it
does with the text between the markers of a certificate. -/
theorem base64_round_trip (x : Bytes) :
    (∀ dst : Bytes, dst.length < 2 ^ 64 → 4 * ((x.length + 2) / 3) + 1 ≤ dst.length →
      ∃ chars, base64EncodeTo x dst = .ok (chars.length, chars ++ 0 :: dst.drop (chars.length + 1)) ∧
        chars.length = 4 * ((x.length + 2) / 3) ∧
        (∀ c ∈ chars, c = Base64.pad ∨ ∃ v < 64, c = Base64.encodeChar v) ∧
        ∀ out : Bytes, x.length ≤ out.length → base64Decode chars out = (x.length, x ++ out.drop x.length)) ∧
    ∀ pem : Bytes, pem.length < 2 ^ 64 →
      certificateHeader.length + 4 * ((x.length + 2) / 3) + certificateFooter.length + 1 ≤ pem.length →
      ∃ body rest, derToPem x pem = .ok (0, certificateHeader ++ body ++ certificateFooter ++ 0 :: rest) ∧
        (certificateHeader ++ body ++ certificateFooter ++ 0 :: rest).length = pem.length ∧
        ∀ out : Bytes, x.length ≤ out.length → base64Decode body out = (x.length, x ++ out.drop x.length) := by
  have hdecode (out : Bytes) (hout : x.length ≤ out.length) := base64Decode_valid (Base64.decode_encode x) hout
  have hencoded := Base64.length_encode x
  refine ⟨?_, ?_⟩
  · intro dst hlen hfits
    exact ⟨_, base64EncodeTo_fits hlen hfits, hencoded, fun c hc => Base64.mem_encode hc, hdecode⟩
  · intro pem hlen hfits
    refine ⟨_, _, derToPem_fits hlen hfits, ?_, hdecode⟩
    simp only [List.length_append, List.length_cons, List.length_drop, hencoded]
    omega

/-- One byte, and a certificate of one byte. -/
theorem base64_round_trip_one :
    (∃ chars, base64EncodeTo [0xFF] (List.replicate 6 7) =
        .ok (chars.length, chars ++ 0 :: (List.replicate 6 7).drop (chars.length + 1)) ∧
      base64Decode chars [0, 0] = (1, [0xFF, 0])) ∧
    ∃ body rest, derToPem [0xFF] (List.replicate 64 7) =
        .ok (0, certificateHeader ++ body ++ certificateFooter ++ 0 :: rest) ∧
      base64Decode body [0, 0] = (1, [0xFF, 0]) := by
  have hmarkers : certificateHeader.length + 4 + certificateFooter.length + 1 ≤ 64 := by decide +kernel
  obtain ⟨hencode, hpem⟩ := base64_round_trip [0xFF]
  obtain ⟨chars, hchars, -, -, hdecode⟩ := hencode (List.replicate 6 7) (by decide) (by decide)
  obtain ⟨body, rest, hbody, -, hdecode'⟩ := hpem (List.replicate 64 7) (by decide) hmarkers
  exact ⟨⟨chars, hchars, hdecode [0, 0] (by decide)⟩, body, rest, hbody, hdecode' [0, 0] (by decide)⟩

end RoundTrip
end RootHerald.Linux
