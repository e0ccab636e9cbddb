import Mathlib.Data.Nat.Bitwise
import RootHerald.Lib.Base64
import RootHerald.Lib.Checked

/-! The base64 helpers of the Linux client. The decoder is lenient on every character, and its return
value is the length it wrote or the length it wanted. -/
namespace RootHerald.Linux
open Lib

def b64DecodeChar (c : UInt8) : Int :=
  if 'A'.toUInt8 ≤ c ∧ c ≤ 'Z'.toUInt8 then c.toNat - 'A'.toNat
  else if 'a'.toUInt8 ≤ c ∧ c ≤ 'z'.toUInt8 then c.toNat - 'a'.toNat + 26
  else if '0'.toUInt8 ≤ c ∧ c ≤ '9'.toUInt8 then c.toNat - '0'.toNat + 52
  else if c = '+'.toUInt8 then 62
  else if c = '/'.toUInt8 then 63
  else -1

/-- The number of '=' among the last two characters. -/
def padding (src : Bytes) : Nat :=
  (if src ≠ [] ∧ src[src.length - 1]? = some '='.toUInt8 then 1 else 0) +
    (if 1 < src.length ∧ src[src.length - 2]? = some '='.toUInt8 then 1 else 0)

/-- Character i of a group: 0 past the end, and 0 for one outside the alphabet. -/
def sextet (src : Bytes) (i : Nat) : UInt32 :=
  match src[i]? with
  | none => 0
  | some ch => if b64DecodeChar ch < 0 then 0 else UInt32.ofNat (b64DecodeChar ch).toNat

/-- dst[di++] = b while di < out_len; out is dst[0..di). -/
def store (outLen : Nat) (out : Bytes) (b : UInt32) : Bytes :=
  if out.length < outLen then out ++ [(b &&& 0xFF).toUInt8] else out

/-- The loop from the group at src on. -/
def base64DecodeLoop (outLen : Nat) (src out : Bytes) : Bytes :=
  if _h : src ≠ [] then
    let triple := sextet src 0 <<< 18 ||| sextet src 1 <<< 12 ||| sextet src 2 <<< 6 ||| sextet src 3
    base64DecodeLoop outLen (src.drop 4)
      (store outLen (store outLen (store outLen out (triple >>> 16)) (triple >>> 8)) triple)
  else out
termination_by src.length
decreasing_by
  have := List.length_pos_iff.mpr _h
  rw [List.length_drop]
  omega

/-- Return value and buffer. A wanted length beyond the buffer is returned without a write. -/
def base64Decode (src dst : Bytes) : Nat × Bytes :=
  if src.length = 0 then (0, dst)
  else
    let outLen := sub64 (src.length / 4 * 3) (padding src)
    if dst.length < outLen then (outLen, dst)
    else
      let out := base64DecodeLoop outLen src []
      (out.length, out ++ dst.drop out.length)

section ValidText

theorem b64DecodeChar_of_decodeChar {c : UInt8} {v : Nat} (h : Base64.decodeChar c = some v) :
    b64DecodeChar c = v := by
  unfold Base64.decodeChar at h
  unfold b64DecodeChar
  split_ifs at h ⊢ with h₁ h₂ h₃ <;> simp only [Option.some.injEq] at h
  · have : 'A'.toNat ≤ c.toNat := h₁.1
    omega
  · have : 'a'.toNat ≤ c.toNat := h₂.1
    omega
  · have : '0'.toNat ≤ c.toNat := h₃.1
    omega
  all_goals omega

private theorem sextet_decodeChar {c : UInt8} {v : Nat} (src : Bytes) (i : Nat) (hc : Base64.decodeChar c = some v)
    (hi : src[i]? = some c) : sextet src i = UInt32.ofNat v := by
  have hnonneg : ¬ ((v : Int) < 0) := by omega
  rw [sextet, hi]
  simp only [b64DecodeChar_of_decodeChar hc, hnonneg, if_false, Int.toNat_natCast]

private theorem sextet_pad (src : Bytes) (i : Nat) (hi : src[i]? = some Base64.pad) : sextet src i = UInt32.ofNat 0 := by
  rw [sextet, hi]
  rfl

private theorem shift_or_eq_add {a b k : Nat} (ha : a < 2 ^ k) : b <<< k ||| a = b * 2 ^ k + a := by
  rw [← Nat.shiftLeft_add_eq_or_of_lt ha, Nat.shiftLeft_eq]

/-- The 24 bits of a group. -/
private theorem triple_toNat {a b c d : Nat} (ha : a < 64) (hb : b < 64) (hc : c < 64) (hd : d < 64) :
    (UInt32.ofNat a <<< 18 ||| UInt32.ofNat b <<< 12 ||| UInt32.ofNat c <<< 6 ||| UInt32.ofNat d).toNat =
      ((a * 64 + b) * 64 + c) * 64 + d := by
  have hof : ∀ {n : Nat}, n < 64 → (UInt32.ofNat n).toNat = n :=
    fun h => UInt32.toNat_ofNat_of_lt' (h.trans (by decide))
  have hshift : ∀ {n k : Nat}, n < 64 → k ≤ 18 → n <<< k % 2 ^ 32 = n <<< k := by
    intro n k hn hk
    apply Nat.mod_eq_of_lt
    rw [Nat.shiftLeft_eq]
    calc n * 2 ^ k < 64 * 2 ^ k := Nat.mul_lt_mul_of_pos_right hn (Nat.two_pow_pos k)
      _ ≤ 64 * 2 ^ 18 := Nat.mul_le_mul_left _ (Nat.pow_le_pow_right (by decide) hk)
      _ < 2 ^ 32 := by decide
  simp only [UInt32.toNat_or, UInt32.toNat_shiftLeft, hof ha, hof hb, hof hc, hof hd]
  change (a <<< 18 % 2 ^ 32 ||| b <<< 12 % 2 ^ 32 ||| c <<< 6 % 2 ^ 32 ||| d) = _
  rw [hshift ha (by omega), hshift hb (by omega), hshift hc (by omega), Nat.or_assoc, Nat.or_assoc,
    shift_or_eq_add (k := 6) hd, shift_or_eq_add (k := 12) (by omega), shift_or_eq_add (k := 18) (by omega)]
  omega

private theorem low_byte (t : UInt32) : (t &&& 0xFF).toUInt8 = UInt8.ofNat t.toNat := by
  apply UInt8.toNat_inj.mp
  rw [UInt32.toNat_toUInt8, UInt32.toNat_and, UInt8.toNat_ofNat', show (0xFF : UInt32).toNat = 2 ^ 8 - 1 from rfl,
    Nat.and_two_pow_sub_one_eq_mod, Nat.mod_mod]

/-- A store after those already cut to what outLen leaves. -/
private theorem store_take (n : Nat) (out done : Bytes) {t : UInt32} {x : UInt8} (hx : UInt8.ofNat t.toNat = x) :
    store (out.length + n) (out ++ done.take n) t = out ++ (done ++ [x]).take n := by
  unfold store
  by_cases h : done.length < n
  · rw [if_pos (by rw [List.length_append, List.length_take]; omega), low_byte, hx,
      List.take_of_length_le (l := done) (by omega), List.take_of_length_le (by simp; omega), List.append_assoc]
  · rw [if_neg (by rw [List.length_append, List.length_take]; omega), List.take_append_of_le_length (by omega)]

/-- The three bytes of a group, cut to what outLen leaves. -/
private theorem store_group {a b c d : Nat} (ha : a < 64) (hb : b < 64) (hc : c < 64) (hd : d < 64) (n : Nat)
    (out : Bytes) {triple : UInt32}
    (ht : triple = UInt32.ofNat a <<< 18 ||| UInt32.ofNat b <<< 12 ||| UInt32.ofNat c <<< 6 ||| UInt32.ofNat d) :
    store (out.length + n) (store (out.length + n) (store (out.length + n) out (triple >>> 16)) (triple >>> 8)) triple =
      out ++ [Base64.byte₀ a b, Base64.byte₁ b c, Base64.byte₂ c d].take n := by
  have htriple := triple_toNat ha hb hc hd
  rw [← ht] at htriple
  have h₀ : UInt8.ofNat (triple >>> 16).toNat = Base64.byte₀ a b := by
    rw [UInt32.toNat_shiftRight, htriple, Nat.shiftRight_eq_div_pow, Base64.byte₀]
    congr 1
    change _ / 2 ^ 16 = _
    omega
  have h₁ : UInt8.ofNat (triple >>> 8).toNat = Base64.byte₁ b c := by
    apply UInt8.toNat_inj.mp
    rw [UInt32.toNat_shiftRight, htriple, Nat.shiftRight_eq_div_pow, Base64.byte₁, UInt8.toNat_ofNat',
      UInt8.toNat_ofNat']
    change _ / 2 ^ 8 % _ = _
    omega
  have h₂ : UInt8.ofNat triple.toNat = Base64.byte₂ c d := by
    apply UInt8.toNat_inj.mp
    rw [htriple, Base64.byte₂, UInt8.toNat_ofNat', UInt8.toNat_ofNat']
    omega
  have e₀ := store_take n out [] h₀
  have e₁ := store_take n out [Base64.byte₀ a b] h₁
  have e₂ := store_take n out [Base64.byte₀ a b, Base64.byte₁ b c] h₂
  rw [List.take_nil, List.append_nil, List.nil_append] at e₀
  rw [e₀, e₁]
  exact e₂

private theorem loop_cons (outLen : Nat) (p q r s : UInt8) (rest out : Bytes) :
    base64DecodeLoop outLen (p :: q :: r :: s :: rest) out =
      let src := p :: q :: r :: s :: rest
      let triple := sextet src 0 <<< 18 ||| sextet src 1 <<< 12 ||| sextet src 2 <<< 6 ||| sextet src 3
      base64DecodeLoop outLen rest
        (store outLen (store outLen (store outLen out (triple >>> 16)) (triple >>> 8)) triple) := by
  rw [base64DecodeLoop, dif_pos (List.cons_ne_nil _ _)]
  rfl

private theorem loop_nil (outLen : Nat) (out : Bytes) : base64DecodeLoop outLen [] out = out := by
  rw [base64DecodeLoop, dif_neg (by simp)]

/-- On valid text the loop appends what the text decodes to. -/
theorem base64DecodeLoop_valid {src val : Bytes} (h : Base64.decode src = some val) (out : Bytes) :
    base64DecodeLoop (out.length + val.length) src out = out ++ val := by
  induction src, val, h using Base64.decode_induction generalizing out with
  | nil => rw [loop_nil, List.append_nil]
  | one p q a b _ ha hb =>
    simp only [loop_cons, loop_nil, sextet_decodeChar [p, q, Base64.pad, Base64.pad] 0 ha rfl,
      sextet_decodeChar [p, q, Base64.pad, Base64.pad] 1 hb rfl,
      sextet_pad [p, q, Base64.pad, Base64.pad] 2 rfl,
      sextet_pad [p, q, Base64.pad, Base64.pad] 3 rfl]
    exact store_group (Base64.decodeChar_lt ha) (Base64.decodeChar_lt hb) (by decide) (by decide) 1 out rfl
  | two p q r a b c _ ha hb hc =>
    simp only [loop_cons, loop_nil, sextet_decodeChar [p, q, r, Base64.pad] 0 ha rfl,
      sextet_decodeChar [p, q, r, Base64.pad] 1 hb rfl,
      sextet_decodeChar [p, q, r, Base64.pad] 2 hc rfl,
      sextet_pad [p, q, r, Base64.pad] 3 rfl]
    exact store_group (Base64.decodeChar_lt ha) (Base64.decodeChar_lt hb) (Base64.decodeChar_lt hc) (by decide) 2 out rfl
  | group p q r s a b c d rest tail _ ha hb hc hd htail ih =>
    have hgroup := store_group (Base64.decodeChar_lt ha) (Base64.decodeChar_lt hb) (Base64.decodeChar_lt hc)
      (Base64.decodeChar_lt hd) (tail.length + 3) out rfl
    rw [List.take_of_length_le (by simp)] at hgroup
    have hloop := ih (out ++ [Base64.byte₀ a b, Base64.byte₁ b c, Base64.byte₂ c d])
    rw [List.append_assoc, List.length_append, Nat.add_assoc, Nat.add_comm _ tail.length] at hloop
    simp only [loop_cons, sextet_decodeChar (p :: q :: r :: s :: rest) 0 ha rfl,
      sextet_decodeChar (p :: q :: r :: s :: rest) 1 hb rfl,
      sextet_decodeChar (p :: q :: r :: s :: rest) 2 hc rfl,
      sextet_decodeChar (p :: q :: r :: s :: rest) 3 hd rfl]
    exact (congrArg _ hgroup).trans hloop

private theorem decodeChar_ne_pad {c : UInt8} {v : Nat} (h : Base64.decodeChar c = some v) : c ≠ Base64.pad := by
  rintro rfl
  rw [Base64.decodeChar_pad] at h
  cases h

private theorem padding_append (src : Bytes) {rest : Bytes} (h : 2 ≤ rest.length) :
    padding (src ++ rest) = padding rest := by
  have hne : rest ≠ [] := List.ne_nil_of_length_pos (by omega)
  have hlast : ∀ k ≤ 2, 0 < k → (src ++ rest)[(src ++ rest).length - k]? = rest[rest.length - k]? := by
    intro k hk hpos
    rw [List.getElem?_append_right (by rw [List.length_append]; omega), List.length_append]
    congr 1
    omega
  have hlen : 1 < src.length + rest.length := by omega
  rw [padding, padding, hlast 1 (by omega) (by omega), hlast 2 (by omega) (by omega)]
  simp [hne, hlen, Nat.lt_of_succ_le h]

/-- The groups of valid text, less its padding, are the bytes it decodes to. -/
theorem length_valid {src val : Bytes} (h : Base64.decode src = some val) :
    src.length / 4 * 3 = val.length + padding src ∧ src.length % 4 = 0 := by
  induction src, val, h using Base64.decode_induction with
  | nil => exact ⟨rfl, rfl⟩
  | one p q a b _ ha hb => exact ⟨by simp [padding, Base64.pad], by simp⟩
  | two p q r a b c _ ha hb hc =>
    have hr := decodeChar_ne_pad hc
    refine ⟨?_, by simp⟩
    rw [show padding [p, q, r, Base64.pad] = 1 by
      simp [padding, show ¬ (r = '='.toUInt8) from hr, show (Base64.pad = '='.toUInt8) from rfl]]
    simp
  | group p q r s a b c d rest tail _ ha hb hc hd htail ih =>
    have hpad : padding (p :: q :: r :: s :: rest) = padding rest := by
      match rest, ih.2 with
      | [], _ => simp [padding, show ¬ (r = '='.toUInt8) from decodeChar_ne_pad hc,
          show ¬ (s = '='.toUInt8) from decodeChar_ne_pad hd]
      | x :: y :: rest, _ => exact padding_append [p, q, r, s] (by simp)
    rw [hpad]
    simp only [List.length_cons]
    omega

/-- Valid text that fits is decoded into the buffer. -/
theorem base64Decode_valid {src val dst : Bytes} (h : Base64.decode src = some val) (hdst : val.length ≤ dst.length) :
    base64Decode src dst = (val.length, val ++ dst.drop val.length) := by
  obtain ⟨hlen, -⟩ := length_valid h
  have hloop := base64DecodeLoop_valid h []
  rw [List.length_nil, Nat.zero_add, List.nil_append] at hloop
  unfold base64Decode
  by_cases hsrc : src.length = 0
  · obtain rfl := List.length_eq_zero_iff.mp hsrc
    cases h
    rfl
  · have hout : sub64 (src.length / 4 * 3) (padding src) = val.length := by
      rw [hlen, sub64_of_le (Nat.le_add_left _ _), Nat.add_sub_cancel]
    rw [if_neg hsrc]
    simp only [hout, hloop]
    rw [if_neg (Nat.not_lt.mpr hdst)]

end ValidText

section Refused

private theorem padding_le (src : Bytes) : padding src ≤ 2 := by
  unfold padding
  split_ifs <;> decide

private theorem length_le_store (outLen : Nat) (out : Bytes) (t : UInt32) :
    out.length ≤ (store outLen out t).length := by
  unfold store
  split_ifs
  · rw [List.length_append]
    omega
  · exact le_refl _

private theorem length_le_loop (outLen : Nat) (src out : Bytes) :
    out.length ≤ (base64DecodeLoop outLen src out).length := by
  fun_induction base64DecodeLoop outLen src out with
  | case1 src out _ triple ih =>
    exact (((length_le_store _ _ _).trans (length_le_store _ _ _)).trans (length_le_store _ _ _)).trans ih
  | case2 => exact le_refl _

private theorem loop_zero (src : Bytes) : base64DecodeLoop 0 src [] = [] := by
  fun_induction base64DecodeLoop 0 src [] with
  | case1 src out _ triple ih => exact ih
  | case2 => rfl

/-- Something is written of any text when something is wanted. -/
private theorem loop_pos {outLen : Nat} {src : Bytes} (hsrc : src ≠ []) (hout : 0 < outLen) :
    0 < (base64DecodeLoop outLen src []).length := by
  rw [base64DecodeLoop, dif_pos hsrc]
  refine Nat.lt_of_lt_of_le ?_ (length_le_loop _ _ _)
  refine Nat.lt_of_lt_of_le ?_ ((length_le_store _ _ _).trans (length_le_store _ _ _))
  rw [store, List.length_nil, if_pos hout]
  exact Nat.one_pos

/-- The decoder returns 0 only on a text of less than a group without padding. -/
theorem base64Decode_eq_zero_iff (src dst : Bytes) :
    (base64Decode src dst).1 = 0 ↔ src.length < 4 ∧ padding src = 0 := by
  have hpad := padding_le src
  unfold base64Decode
  by_cases hsrc : src.length = 0
  · obtain rfl := List.length_eq_zero_iff.mp hsrc
    simp [padding]
  rw [if_neg hsrc]
  by_cases hwant : sub64 (src.length / 4 * 3) (padding src) = 0
  · have hnone : src.length < 4 ∧ padding src = 0 := by
      unfold sub64 at hwant
      split_ifs at hwant <;> omega
    refine iff_of_true ?_ hnone
    simp only [hwant, loop_zero, Nat.not_lt_zero, if_false, List.length_nil]
  · have hsome : ¬ (src.length < 4 ∧ padding src = 0) := by
      rintro ⟨hlt, hzero⟩
      rw [hzero, Nat.div_eq_of_lt hlt] at hwant
      exact hwant rfl
    have hpos := loop_pos (List.ne_nil_of_length_pos (Nat.pos_of_ne_zero hsrc)) (Nat.pos_of_ne_zero hwant)
    simp only [hsome, iff_false]
    split_ifs
    · exact hwant
    · exact Nat.pos_iff_ne_zero.mp hpos

end Refused

section Counted

/-- The count that is returned is that of the bytes in the buffer: all of them for a text that fits, and
none for any other. -/
def DecodesAsCounted (src dst : Bytes) : Prop :=
  let r := base64Decode src dst
  match Base64.decode src with
  | some val => if val.length ≤ dst.length then r.1 ≤ dst.length ∧ r.2.take r.1 = val else r.1 = 0
  | none => r.1 = 0

/-- Refused as it should be is only a text of less than a group without padding. -/
theorem decodesAsCounted_iff (src dst : Bytes) : DecodesAsCounted src dst ↔
    (∃ val, Base64.decode src = some val ∧ val.length ≤ dst.length) ∨ (src.length < 4 ∧ padding src = 0) := by
  have hzero := base64Decode_eq_zero_iff src dst
  unfold DecodesAsCounted
  cases hdecode : Base64.decode src with
  | none => simpa using hzero
  | some val =>
    by_cases hfits : val.length ≤ dst.length
    · have hresult := base64Decode_valid hdecode hfits
      refine iff_of_true ?_ (.inl ⟨val, rfl, hfits⟩)
      simp only [hfits, if_true, hresult, List.take_left, and_self]
    · simpa [hfits] using hzero

/-- Four characters outside the alphabet count as three bytes. -/
theorem decodes_no_base64 : ¬ ∀ src dst, DecodesAsCounted src dst := by
  intro h
  have hcount : DecodesAsCounted (text "####") [0, 0, 0] := h _ _
  have hinvalid : Base64.decode (text "####") = none := by decide
  rw [DecodesAsCounted, hinvalid] at hcount
  have hshort := ((base64Decode_eq_zero_iff _ _).mp hcount).1
  exact absurd hshort (by decide)

end Counted

section Encoder

def b64Table : Bytes := text "ABCDEFGHIJKLMNOPQRSTUVWXYZabcdefghijklmnopqrstuvwxyz0123456789+/"

def packTriple (a b c : UInt8) : UInt32 := a.toUInt32 <<< 16 ||| b.toUInt32 <<< 8 ||| c.toUInt32

/-- b64_table[(triple >> shift) & 0x3F]. -/
def b64Char (triple shift : UInt32) : UInt8 := b64Table.getD ((triple >>> shift) &&& 0x3F).toNat 0

/-- The loop over groups of three bytes. -/
def base64EncodeLoop : Bytes → Bytes
  | [] => []
  | [a] => [b64Char (packTriple a 0 0) 18, b64Char (packTriple a 0 0) 12, '='.toUInt8, '='.toUInt8]
  | [a, b] => [b64Char (packTriple a b 0) 18, b64Char (packTriple a b 0) 12, b64Char (packTriple a b 0) 6, '='.toUInt8]
  | a :: b :: c :: src =>
    b64Char (packTriple a b c) 18 :: b64Char (packTriple a b c) 12 :: b64Char (packTriple a b c) 6 ::
      b64Char (packTriple a b c) 0 :: base64EncodeLoop src

/-- Without room the destination is left as it was, which the caller reads all the same. -/
def base64Encode (src : Bytes) (dstLen : Nat) : Checked Bytes :=
  if dstLen < 4 * ((src.length + 2) / 3) + 1 then .error .outOfBounds else .ok (base64EncodeLoop src)

private theorem packTriple_toNat (a b c : UInt8) :
    (packTriple a b c).toNat = a.toNat * 65536 + b.toNat * 256 + c.toNat := by
  have ha := a.toNat_lt
  have hb := b.toNat_lt
  have hc := c.toNat_lt
  have hshift : ∀ {n k : Nat}, n < 256 → k ≤ 16 → n <<< k % 2 ^ 32 = n <<< k := by
    intro n k hn hk
    apply Nat.mod_eq_of_lt
    rw [Nat.shiftLeft_eq]
    calc n * 2 ^ k < 256 * 2 ^ k := Nat.mul_lt_mul_of_pos_right hn (Nat.two_pow_pos k)
      _ ≤ 256 * 2 ^ 16 := Nat.mul_le_mul_left _ (Nat.pow_le_pow_right (by decide) hk)
      _ < 2 ^ 32 := by decide
  simp only [packTriple, UInt32.toNat_or, UInt32.toNat_shiftLeft, UInt8.toNat_toUInt32]
  change a.toNat <<< 16 % 2 ^ 32 ||| b.toNat <<< 8 % 2 ^ 32 ||| c.toNat = _
  rw [hshift ha (by omega), hshift hb (by omega), Nat.or_assoc, shift_or_eq_add (k := 8) (by omega),
    shift_or_eq_add (k := 16) (by omega)]
  omega

private theorem b64Table_getD {v : Nat} (h : v < 64) : b64Table.getD v 0 = Base64.encodeChar v :=
  (by decide +kernel : ∀ v < 64, b64Table.getD v 0 = Base64.encodeChar v) v h

private theorem b64Char_eq {triple shift : UInt32} {k v : Nat} (hk : shift.toNat % 32 = k)
    (hv : triple.toNat / 2 ^ k % 64 = v) : b64Char triple shift = Base64.encodeChar v := by
  have hindex : ((triple >>> shift) &&& 0x3F).toNat = v := by
    rw [UInt32.toNat_and, UInt32.toNat_shiftRight, show (0x3F : UInt32).toNat = 2 ^ 6 - 1 from rfl,
      Nat.and_two_pow_sub_one_eq_mod, hk, Nat.shiftRight_eq_div_pow]
    exact hv
  rw [b64Char, hindex, b64Table_getD (hv ▸ Nat.mod_lt _ (by decide))]

/-- The four characters of a group. -/
private theorem b64Char_packTriple (a b c : UInt8) :
    b64Char (packTriple a b c) 18 = Base64.encodeChar (a.toNat / 4) ∧
      b64Char (packTriple a b c) 12 = Base64.encodeChar (a.toNat % 4 * 16 + b.toNat / 16) ∧
      b64Char (packTriple a b c) 6 = Base64.encodeChar (b.toNat % 16 * 4 + c.toNat / 64) ∧
      b64Char (packTriple a b c) 0 = Base64.encodeChar (c.toNat % 64) := by
  have ha := a.toNat_lt
  have hb := b.toNat_lt
  have hc := c.toNat_lt
  refine ⟨b64Char_eq (k := 18) rfl ?_, b64Char_eq (k := 12) rfl ?_, b64Char_eq (k := 6) rfl ?_, b64Char_eq (k := 0) rfl ?_⟩
  all_goals
    rw [packTriple_toNat]
    omega

/-- The encoder writes the base 64 of its input. -/
theorem base64EncodeLoop_eq (src : Bytes) : base64EncodeLoop src = Base64.encode src := by
  fun_induction Base64.encode src with
  | case1 => rfl
  | case2 a =>
    obtain ⟨h₀, h₁, -, -⟩ := b64Char_packTriple a 0 0
    rw [base64EncodeLoop, h₀, h₁]
    rfl
  | case3 a b =>
    obtain ⟨h₀, h₁, h₂, -⟩ := b64Char_packTriple a b 0
    rw [base64EncodeLoop, h₀, h₁, h₂]
    rfl
  | case4 a b c src ih =>
    obtain ⟨h₀, h₁, h₂, h₃⟩ := b64Char_packTriple a b c
    rw [base64EncodeLoop, h₀, h₁, h₂, h₃, ih]

theorem base64Encode_fits {src : Bytes} {dstLen : Nat} (h : 4 * ((src.length + 2) / 3) < dstLen) :
    base64Encode src dstLen = .ok (Base64.encode src) := by
  rw [base64Encode, if_neg (by omega), base64EncodeLoop_eq]

end Encoder
end RootHerald.Linux
