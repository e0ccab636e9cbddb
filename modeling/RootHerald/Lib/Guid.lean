import RootHerald.Lib.Bytes

/-! Globally unique identifiers: their fields, the order of their bytes and their text. The text writes the
first three fields as numbers, so that it swaps the bytes which store them. -/
namespace RootHerald.Lib

section HexReading

def IsLowerHex (c : UInt8) : Prop :=
  '0'.toUInt8 ≤ c ∧ c ≤ '9'.toUInt8 ∨ 'a'.toUInt8 ≤ c ∧ c ≤ 'f'.toUInt8

instance : DecidablePred IsLowerHex := fun _ => inferInstanceAs (Decidable (_ ∨ _))

/-- A digit of either case. -/
def lowerHexValue (c : UInt8) : Option Nat :=
  if '0'.toUInt8 ≤ c ∧ c ≤ '9'.toUInt8 then some (c.toNat - '0'.toNat)
  else if 'a'.toUInt8 ≤ c ∧ c ≤ 'f'.toUInt8 then some (c.toNat - 'a'.toNat + 10)
  else if 'A'.toUInt8 ≤ c ∧ c ≤ 'F'.toUInt8 then some (c.toNat - 'A'.toNat + 10)
  else none

/-- n bytes of two digits each, and what stands behind them. -/
def readHex : Nat → Bytes → Option (Bytes × Bytes)
  | 0, s => some ([], s)
  | n + 1, c :: d :: s => do
    let high ← lowerHexValue c
    let low ← lowerHexValue d
    let (bs, s) ← readHex n s
    return (UInt8.ofNat (16 * high + low) :: bs, s)
  | _ + 1, _ => none

private theorem hexDigit_lower {v : Nat} (h : v < 16) : IsLowerHex (hexDigit v) ∧ lowerHexValue (hexDigit v) = some v :=
  (by decide : ∀ v < 16, IsLowerHex (hexDigit v) ∧ lowerHexValue (hexDigit v) = some v) v h

theorem hexEncode_lower {bs : Bytes} {c : UInt8} (h : c ∈ hexEncode bs) : IsLowerHex c := by
  obtain ⟨v, hv, rfl⟩ := mem_hexEncode h
  exact (hexDigit_lower hv).1

theorem readHex_hexEncode (bs rest : Bytes) : readHex bs.length (hexEncode bs ++ rest) = some (bs, rest) := by
  induction bs with
  | nil => rfl
  | cons b bs ih =>
    have hb := b.toNat_lt
    have hhigh := (hexDigit_lower (show b.toNat / 16 < 16 by omega)).2
    have hlow := (hexDigit_lower (show b.toNat % 16 < 16 by omega)).2
    have hbyte : UInt8.ofNat (16 * (b.toNat / 16) + b.toNat % 16) = b := by
      rw [Nat.div_add_mod, UInt8.ofNat_toNat]
    rw [hexEncode, List.flatMap_cons, ← hexEncode]
    simp only [List.cons_append, List.nil_append, List.length_cons, readHex, hhigh, hlow, ih, Option.bind_eq_bind,
      Option.bind_some, Option.pure_def, hbyte]

end HexReading

structure Guid where
  data1 : UInt32
  data2 : UInt16
  data3 : UInt16
  data4 : Bytes
  data4_length : data4.length = 8
  deriving DecidableEq

namespace Guid

def toByteArray (g : Guid) : Bytes := bytes32 g.data1 ++ bytes16 g.data2 ++ bytes16 g.data3 ++ g.data4

/-- The identifier whose bytes are b. -/
def ofByteArray (b : Bytes) (hb : b.length = 16) : Guid where
  data1 := UInt32.ofNat (leNat (b.take 4))
  data2 := UInt16.ofNat (leNat ((b.drop 4).take 2))
  data3 := UInt16.ofNat (leNat ((b.drop 6).take 2))
  data4 := b.drop 8
  data4_length := by rw [List.length_drop, hb]

def dash : UInt8 := '-'.toUInt8

/-- 8-4-4-4-12 digits. -/
def format (g : Guid) : Bytes :=
  hexEncode (beBytes 4 g.data1.toNat) ++ dash :: (hexEncode (beBytes 2 g.data2.toNat) ++
    dash :: (hexEncode (beBytes 2 g.data3.toNat) ++ dash :: (hexEncode (g.data4.take 2) ++
      dash :: hexEncode (g.data4.drop 2))))

def readDash : Bytes → Option Bytes
  | c :: s => if c = dash then some s else none
  | [] => none

def parse (s : Bytes) : Option Guid := do
  let (b₁, s) ← readHex 4 s
  let (b₂, s) ← readHex 2 (← readDash s)
  let (b₃, s) ← readHex 2 (← readDash s)
  let (b₄, s) ← readHex 2 (← readDash s)
  let (b₅, s) ← readHex 6 (← readDash s)
  if h : (b₄ ++ b₅).length = 8 ∧ s = [] then
    some ⟨UInt32.ofNat (beNat b₁), UInt16.ofNat (beNat b₂), UInt16.ofNat (beNat b₃), b₄ ++ b₅, h.1⟩
  else none

private theorem readHex_beBytes (k n : Nat) (rest : Bytes) :
    readHex k (hexEncode (beBytes k n) ++ rest) = some (beBytes k n, rest) := by
  have h := readHex_hexEncode (beBytes k n) rest
  rwa [beBytes_length] at h

private theorem readDash_cons (s : Bytes) : readDash (dash :: s) = some s := by
  rw [readDash, if_pos rfl]

theorem parse_format (g : Guid) : parse g.format = some g := by
  obtain ⟨data1, data2, data3, data4, hdata4⟩ := g
  have htake : (data4.take 2).length = 2 := List.length_take_of_le (by omega)
  have hdrop : (data4.drop 2).length = 6 := by rw [List.length_drop, hdata4]
  have h₄ (rest : Bytes) := readHex_hexEncode (data4.take 2) rest
  have h₅ := readHex_hexEncode (data4.drop 2) []
  rw [List.append_nil] at h₅
  rw [htake] at h₄
  rw [hdrop] at h₅
  have hread₁ : beNat (beBytes 4 data1.toNat) = data1.toNat := beNat_beBytes data1.toNat_lt
  have hread₂ : beNat (beBytes 2 data2.toNat) = data2.toNat := beNat_beBytes data2.toNat_lt
  have hread₃ : beNat (beBytes 2 data3.toNat) = data3.toNat := beNat_beBytes data3.toNat_lt
  simp only [parse, format, readHex_beBytes, readDash_cons, h₄, h₅, hread₁, hread₂, hread₃, Option.bind_eq_bind,
    Option.bind_some, List.take_append_drop, hdata4, and_self, dite_true, UInt32.ofNat_toNat, UInt16.ofNat_toNat]

theorem toByteArray_ofByteArray {b : Bytes} (hb : b.length = 16) : (ofByteArray b hb).toByteArray = b := by
  have hword : ∀ {k : Nat} {bs : Bytes}, bs.length = k → leBytes k (leNat bs % 2 ^ (8 * k)) = bs := by
    rintro k bs rfl
    have hlt : leNat bs < 2 ^ (8 * bs.length) := by
      rw [Nat.pow_mul]
      exact leNat_lt bs
    rw [Nat.mod_eq_of_lt hlt, leBytes_leNat]
  have h₁ : bytes32 (UInt32.ofNat (leNat (b.take 4))) = b.take 4 := hword (List.length_take_of_le (by omega))
  have h₂ : bytes16 (UInt16.ofNat (leNat ((b.drop 4).take 2))) = (b.drop 4).take 2 :=
    hword (List.length_take_of_le (by rw [List.length_drop]; omega))
  have h₃ : bytes16 (UInt16.ofNat (leNat ((b.drop 6).take 2))) = (b.drop 6).take 2 :=
    hword (List.length_take_of_le (by rw [List.length_drop]; omega))
  have hlast : b.drop 8 = (b.drop 6).drop 2 := by rw [List.drop_drop]
  have hmiddle : b.drop 6 = (b.drop 4).drop 2 := by rw [List.drop_drop]
  simp only [toByteArray, ofByteArray, h₁, h₂, h₃]
  rw [List.append_assoc, hlast, List.take_append_drop, List.append_assoc, hmiddle, List.take_append_drop,
    List.take_append_drop]

/-- 36 characters: dashes behind 8, 12, 16 and 20 digits, and lower-case digits elsewhere. -/
def IsText (s : Bytes) : Prop :=
  s.length = 36 ∧ ∀ i c, s[i]? = some c → if i = 8 ∨ i = 13 ∨ i = 18 ∨ i = 23 then c = dash else IsLowerHex c

/-- Digits with a dash behind them, in front of a text whose dashes stand where P says. -/
private theorem group_text {P : Nat → Prop} [DecidablePred P] {digits rest : Bytes} {n : Nat}
    (hlen : digits.length = n) (hdigits : ∀ c ∈ digits, IsLowerHex c) (hinside : ∀ i < n, ¬ P i) (hdash : P n)
    (hrest : ∀ i c, rest[i]? = some c → if P (n + 1 + i) then c = dash else IsLowerHex c) :
    ∀ i c, (digits ++ dash :: rest)[i]? = some c → if P i then c = dash else IsLowerHex c := by
  intro i c hc
  rcases Nat.lt_trichotomy i n with hi | rfl | hi
  · rw [List.getElem?_append_left (hlen ▸ hi)] at hc
    rw [if_neg (hinside i hi)]
    exact hdigits c (List.mem_of_getElem? hc)
  · rw [List.getElem?_append_right hlen.le, hlen, Nat.sub_self] at hc
    rw [if_pos hdash]
    exact (Option.some.inj hc).symm
  · obtain ⟨j, rfl⟩ := Nat.exists_eq_add_of_le (Nat.succ_le_of_lt hi)
    have hj : n.succ + j - n = j + 1 := by omega
    rw [List.getElem?_append_right (hlen.le.trans hi.le), hlen, hj, List.getElem?_cons_succ] at hc
    exact hrest j c hc

theorem isText_format (g : Guid) : IsText g.format := by
  obtain ⟨data1, data2, data3, data4, hdata4⟩ := g
  have h₁ : (hexEncode (beBytes 4 data1.toNat)).length = 8 := by rw [hexEncode_length, beBytes_length]
  have h₂ : (hexEncode (beBytes 2 data2.toNat)).length = 4 := by rw [hexEncode_length, beBytes_length]
  have h₃ : (hexEncode (beBytes 2 data3.toNat)).length = 4 := by rw [hexEncode_length, beBytes_length]
  have h₄ : (hexEncode (data4.take 2)).length = 4 := by rw [hexEncode_length, List.length_take_of_le (by omega)]
  have h₅ : (hexEncode (data4.drop 2)).length = 12 := by rw [hexEncode_length, List.length_drop, hdata4]
  have hlower : ∀ bs : Bytes, ∀ c ∈ hexEncode bs, IsLowerHex c := fun _ _ hc => hexEncode_lower hc
  refine ⟨?_, ?_⟩
  · simp only [format, List.length_append, List.length_cons, h₁, h₂, h₃, h₄, h₅]
  · apply group_text h₁ (hlower _) (by omega) (by omega)
    apply group_text h₂ (hlower _) (by omega) (by omega)
    apply group_text h₃ (hlower _) (by omega) (by omega)
    apply group_text h₄ (hlower _) (by omega) (by omega)
    intro i c hc
    obtain ⟨hi, -⟩ := List.getElem?_eq_some_iff.mp hc
    rw [if_neg (by omega)]
    exact hexEncode_lower (List.mem_of_getElem? hc)

end Guid
end RootHerald.Lib
