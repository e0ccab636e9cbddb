import RootHerald.Lib.Bytes

/-! Base 64 with padding, as groups of four characters for three bytes. Decoding ignores the bits
a padding stands for. -/
namespace RootHerald.Lib.Base64

def pad : UInt8 := '='.toUInt8

/-- The character of a value below 64. -/
def encodeChar (v : Nat) : UInt8 :=
  if v < 26 then UInt8.ofNat ('A'.toNat + v)
  else if v < 52 then UInt8.ofNat ('a'.toNat + (v - 26))
  else if v < 62 then UInt8.ofNat ('0'.toNat + (v - 52))
  else if v = 62 then '+'.toUInt8
  else '/'.toUInt8

/-- The value of a character of the alphabet. -/
def decodeChar (c : UInt8) : Option Nat :=
  if 'A'.toUInt8 ≤ c ∧ c ≤ 'Z'.toUInt8 then some (c.toNat - 'A'.toNat)
  else if 'a'.toUInt8 ≤ c ∧ c ≤ 'z'.toUInt8 then some (c.toNat - 'a'.toNat + 26)
  else if '0'.toUInt8 ≤ c ∧ c ≤ '9'.toUInt8 then some (c.toNat - '0'.toNat + 52)
  else if c = '+'.toUInt8 then some 62
  else if c = '/'.toUInt8 then some 63
  else none

theorem decodeChar_encodeChar {v : Nat} (h : v < 64) : decodeChar (encodeChar v) = some v :=
  (by decide : ∀ v < 64, decodeChar (encodeChar v) = some v) v h

theorem encodeChar_ne_pad {v : Nat} (h : v < 64) : encodeChar v ≠ pad :=
  (by decide : ∀ v < 64, encodeChar v ≠ pad) v h

theorem decodeChar_pad : decodeChar pad = none := by decide

theorem decodeChar_lt {c : UInt8} {v : Nat} (h : decodeChar c = some v) : v < 64 := by
  have hall : ∀ n < 256, ∀ v ∈ decodeChar (UInt8.ofNat n), v < 64 := by decide +kernel
  exact hall c.toNat c.toNat_lt v (by rw [UInt8.ofNat_toNat]; exact h)

/-- The bytes three, two or one of whose bits reach into each character value. -/
def byte₀ (a b : Nat) : UInt8 := UInt8.ofNat (a * 4 + b / 16)
def byte₁ (b c : Nat) : UInt8 := UInt8.ofNat (b % 16 * 16 + c / 4)
def byte₂ (c d : Nat) : UInt8 := UInt8.ofNat (c % 4 * 64 + d)

def encode : Bytes → Bytes
  | [] => []
  | [x] => [encodeChar (x.toNat / 4), encodeChar (x.toNat % 4 * 16), pad, pad]
  | [x, y] => [encodeChar (x.toNat / 4), encodeChar (x.toNat % 4 * 16 + y.toNat / 16),
      encodeChar (y.toNat % 16 * 4), pad]
  | x :: y :: z :: rest =>
    encodeChar (x.toNat / 4) :: encodeChar (x.toNat % 4 * 16 + y.toNat / 16) ::
      encodeChar (y.toNat % 16 * 4 + z.toNat / 64) :: encodeChar (z.toNat % 64) :: encode rest

/-- Padding closes the last group only. -/
def decode : Bytes → Option Bytes
  | [] => some []
  | p :: q :: r :: s :: rest =>
    (decodeChar p).bind fun a => (decodeChar q).bind fun b =>
      if r = pad then if s = pad ∧ rest = [] then some [byte₀ a b] else none
      else (decodeChar r).bind fun c =>
        if s = pad then if rest = [] then some [byte₀ a b, byte₁ b c] else none
        else (decodeChar s).bind fun d => (decode rest).map fun tail =>
          byte₀ a b :: byte₁ b c :: byte₂ c d :: tail
  | _ => none

/-- The three ways a text of a group and more decodes. -/
theorem decode_cons_eq_some {p q r s : UInt8} {rest val : Bytes} (h : decode (p :: q :: r :: s :: rest) = some val) :
    ∃ a b, decodeChar p = some a ∧ decodeChar q = some b ∧
      (r = pad ∧ s = pad ∧ rest = [] ∧ val = [byte₀ a b] ∨
        ∃ c, decodeChar r = some c ∧
          (s = pad ∧ rest = [] ∧ val = [byte₀ a b, byte₁ b c] ∨
            ∃ d tail, decodeChar s = some d ∧ decode rest = some tail ∧
              val = byte₀ a b :: byte₁ b c :: byte₂ c d :: tail)) := by
  rw [decode] at h
  obtain ⟨a, ha, h⟩ := Option.bind_eq_some_iff.mp h
  obtain ⟨b, hb, h⟩ := Option.bind_eq_some_iff.mp h
  refine ⟨a, b, ha, hb, ?_⟩
  by_cases hr : r = pad
  · rw [if_pos hr] at h
    obtain ⟨⟨hs, hrest⟩, h⟩ := Option.ite_none_right_eq_some.mp h
    exact .inl ⟨hr, hs, hrest, (Option.some.inj h).symm⟩
  rw [if_neg hr] at h
  obtain ⟨c, hc, h⟩ := Option.bind_eq_some_iff.mp h
  refine .inr ⟨c, hc, ?_⟩
  by_cases hs : s = pad
  · rw [if_pos hs] at h
    obtain ⟨hrest, h⟩ := Option.ite_none_right_eq_some.mp h
    exact .inl ⟨hs, hrest, (Option.some.inj h).symm⟩
  rw [if_neg hs] at h
  obtain ⟨d, hd, h⟩ := Option.bind_eq_some_iff.mp h
  obtain ⟨tail, htail, h⟩ := Option.map_eq_some_iff.mp h
  exact .inr ⟨d, tail, hd, htail, h.symm⟩

/-- Induction on a text that decodes, group by group. -/
theorem decode_induction {motive : (src val : Bytes) → decode src = some val → Prop} (nil : ∀ h, motive [] [] h)
    (one : ∀ p q a b h, decodeChar p = some a → decodeChar q = some b → motive [p, q, pad, pad] [byte₀ a b] h)
    (two : ∀ p q r a b c h, decodeChar p = some a → decodeChar q = some b → decodeChar r = some c →
      motive [p, q, r, pad] [byte₀ a b, byte₁ b c] h)
    (group : ∀ p q r s a b c d rest tail h, decodeChar p = some a → decodeChar q = some b → decodeChar r = some c →
      decodeChar s = some d → ∀ htail : decode rest = some tail, motive rest tail htail →
      motive (p :: q :: r :: s :: rest) (byte₀ a b :: byte₁ b c :: byte₂ c d :: tail) h)
    (src val : Bytes) (h : decode src = some val) : motive src val h := by
  induction src using decode.induct generalizing val with
  | case1 =>
    cases h
    exact nil _
  | case2 p q r s rest ih =>
    obtain ⟨a, b, ha, hb, hrs⟩ := decode_cons_eq_some h
    rcases hrs with ⟨rfl, rfl, rfl, rfl⟩ | ⟨c, hc, hs⟩
    · exact one p q a b _ ha hb
    rcases hs with ⟨rfl, rfl, rfl⟩ | ⟨d, tail, hd, htail, rfl⟩
    · exact two p q r a b c _ ha hb hc
    · exact group p q r s a b c d rest tail _ ha hb hc hd htail (ih tail htail)
  | case3 src hnil hcons =>
    rw [decode.eq_3 src hnil hcons] at h
    cases h

/-- An encoded text holds characters of the alphabet and paddings only. -/
theorem mem_encode {bs : Bytes} {c : UInt8} (hc : c ∈ encode bs) : c = pad ∨ ∃ v < 64, c = encodeChar v := by
  fun_induction encode bs with
  | case1 => cases hc
  | case2 x =>
    have hx := x.toNat_lt
    simp only [List.mem_cons, List.not_mem_nil, or_false] at hc
    rcases hc with rfl | rfl | rfl | rfl
    · exact .inr ⟨_, by omega, rfl⟩
    · exact .inr ⟨_, by omega, rfl⟩
    · exact .inl rfl
    · exact .inl rfl
  | case3 x y =>
    have hx := x.toNat_lt
    have hy := y.toNat_lt
    simp only [List.mem_cons, List.not_mem_nil, or_false] at hc
    rcases hc with rfl | rfl | rfl | rfl
    · exact .inr ⟨_, by omega, rfl⟩
    · exact .inr ⟨_, by omega, rfl⟩
    · exact .inr ⟨_, by omega, rfl⟩
    · exact .inl rfl
  | case4 x y z rest ih =>
    have hx := x.toNat_lt
    have hy := y.toNat_lt
    have hz := z.toNat_lt
    simp only [List.mem_cons] at hc
    rcases hc with rfl | rfl | rfl | rfl | hc
    · exact .inr ⟨_, by omega, rfl⟩
    · exact .inr ⟨_, by omega, rfl⟩
    · exact .inr ⟨_, by omega, rfl⟩
    · exact .inr ⟨_, by omega, rfl⟩
    · exact ih hc

/-- A test every character of the alphabet passes holds all over an encoded text. -/
theorem encode_all {p : UInt8 → Prop} (hpad : p pad) (hchar : ∀ v < 64, p (encodeChar v)) {bs : Bytes} {c : UInt8}
    (hc : c ∈ encode bs) : p c := by
  rcases mem_encode hc with rfl | ⟨v, hv, rfl⟩
  · exact hpad
  · exact hchar v hv

section RoundTrip

private theorem ofNat_eq {n : Nat} {x : UInt8} (h : n = x.toNat) : UInt8.ofNat n = x := by
  rw [h, UInt8.ofNat_toNat]

theorem decode_encode (bs : Bytes) : decode (encode bs) = some bs := by
  fun_induction encode bs with
  | case1 => rfl
  | case2 x =>
    have hx := x.toNat_lt
    have h₀ : byte₀ (x.toNat / 4) (x.toNat % 4 * 16) = x := ofNat_eq (by omega)
    simp only [decode, decodeChar_encodeChar (v := x.toNat / 4) (by omega),
      decodeChar_encodeChar (v := x.toNat % 4 * 16) (by omega), Option.bind_some, h₀]
    rfl
  | case3 x y =>
    have hx := x.toNat_lt
    have hy := y.toNat_lt
    have h₀ : byte₀ (x.toNat / 4) (x.toNat % 4 * 16 + y.toNat / 16) = x := ofNat_eq (by omega)
    have h₁ : byte₁ (x.toNat % 4 * 16 + y.toNat / 16) (y.toNat % 16 * 4) = y := ofNat_eq (by omega)
    have hne : encodeChar (y.toNat % 16 * 4) ≠ pad := encodeChar_ne_pad (by omega)
    simp only [decode, decodeChar_encodeChar (v := x.toNat / 4) (by omega),
      decodeChar_encodeChar (v := x.toNat % 4 * 16 + y.toNat / 16) (by omega),
      decodeChar_encodeChar (v := y.toNat % 16 * 4) (by omega), Option.bind_some, h₀, h₁, hne]
    rfl
  | case4 x y z rest ih =>
    have hx := x.toNat_lt
    have hy := y.toNat_lt
    have hz := z.toNat_lt
    have h₀ : byte₀ (x.toNat / 4) (x.toNat % 4 * 16 + y.toNat / 16) = x := ofNat_eq (by omega)
    have h₁ : byte₁ (x.toNat % 4 * 16 + y.toNat / 16) (y.toNat % 16 * 4 + z.toNat / 64) = y := ofNat_eq (by omega)
    have h₂ : byte₂ (y.toNat % 16 * 4 + z.toNat / 64) (z.toNat % 64) = z := ofNat_eq (by omega)
    have hne₁ : encodeChar (y.toNat % 16 * 4 + z.toNat / 64) ≠ pad := encodeChar_ne_pad (by omega)
    have hne₂ : encodeChar (z.toNat % 64) ≠ pad := encodeChar_ne_pad (by omega)
    simp only [decode, decodeChar_encodeChar (v := x.toNat / 4) (by omega),
      decodeChar_encodeChar (v := x.toNat % 4 * 16 + y.toNat / 16) (by omega),
      decodeChar_encodeChar (v := y.toNat % 16 * 4 + z.toNat / 64) (by omega),
      decodeChar_encodeChar (v := z.toNat % 64) (by omega), Option.bind_some, h₀, h₁, h₂, hne₁, hne₂, ih]
    rfl

theorem length_encode (bs : Bytes) : (encode bs).length = 4 * ((bs.length + 2) / 3) := by
  fun_induction encode bs with
  | case1 => rfl
  | case2 x => simp
  | case3 x y => simp
  | case4 x y z rest ih =>
    simp only [List.length_cons, ih]
    omega

theorem encode_injective {bs bs' : Bytes} (h : encode bs = encode bs') : bs = bs' := by
  have hdecode := congrArg decode h
  rw [decode_encode, decode_encode] at hdecode
  exact Option.some.inj hdecode

end RoundTrip
end RootHerald.Lib.Base64
