import Mathlib.Data.Nat.Bitwise
import Mathlib.Data.List.Basic
import Mathlib.Tactic.Ring

/-! Byte strings, string literals and the little-endian machine words read from them. -/
namespace RootHerald.Lib

abbrev Bytes := List UInt8

instance : LawfulBEq Bytes := inferInstance

instance : Std.LawfulOrderLT Bytes := inferInstance

/-- Through the bytes of the text, not through all bytes. -/
instance (p : UInt8 → Prop) [DecidablePred p] (bs : Bytes) : Decidable (∀ c ∈ bs, p c) := bs.decidableBAll p

/-- The UTF-8 bytes of a literal. -/
def text (s : String) : Bytes := s.toList.flatMap String.utf8EncodeChar

@[simp] theorem text_inj {s t : String} : text s = text t ↔ s = t := by
  refine ⟨fun h => ?_, congrArg text⟩
  have hencode : s.toList.utf8Encode = t.toList.utf8Encode := congrArg List.toByteArray h
  rw [← String.toByteArray_ofList, ← String.toByteArray_ofList, String.toByteArray_inj] at hencode
  simpa using hencode

/-- Decimal digits, as std::to_string prints an unsigned value. -/
def decimal (n : Nat) : Bytes := text (toString n)

/-- Position of the first occurrence of needle. -/
def indexOf (needle : Bytes) : Bytes → Option Nat
  | [] => if needle = [] then some 0 else none
  | b :: bs => if needle.isPrefixOf (b :: bs) then some 0 else (indexOf needle bs).map (· + 1)

/-- s.find(needle) != npos. -/
def contains (s needle : Bytes) : Bool := (indexOf needle s).isSome

/-- Little-endian value of a byte string of any length. -/
def leNat : Bytes → Nat
  | [] => 0
  | b :: bs => b.toNat + 256 * leNat bs

/-- The k low bytes of n, least significant first. -/
def leBytes : Nat → Nat → Bytes
  | 0, _ => []
  | k + 1, n => UInt8.ofNat (n % 256) :: leBytes k (n / 256)

@[simp] theorem leBytes_length (k n : Nat) : (leBytes k n).length = k := by
  induction k generalizing n with
  | zero => rfl
  | succ k ih => simp [leBytes, ih]

theorem leNat_lt (bs : Bytes) : leNat bs < 256 ^ bs.length := by
  induction bs with
  | nil => simp [leNat]
  | cons b bs ih =>
    have hb := b.toNat_lt
    simp only [leNat, List.length_cons, Nat.pow_succ]
    omega

theorem leNat_leBytes (k n : Nat) : leNat (leBytes k n) = n % 256 ^ k := by
  induction k generalizing n with
  | zero => simp [leBytes, leNat, Nat.mod_one]
  | succ k ih =>
    have hb : (UInt8.ofNat (n % 256)).toNat = n % 256 := by
      simp [UInt8.toNat_ofNat']
    rw [leBytes, leNat, ih, hb, Nat.pow_succ, Nat.mul_comm (256 ^ k), Nat.mod_mul]

theorem leBytes_leNat (bs : Bytes) : leBytes bs.length (leNat bs) = bs := by
  induction bs with
  | nil => rfl
  | cons b bs ih =>
    have hb := b.toNat_lt
    have hm : (b.toNat + 256 * leNat bs) % 256 = b.toNat := by omega
    have hd : (b.toNat + 256 * leNat bs) / 256 = leNat bs := by omega
    simp only [leNat, List.length_cons, leBytes, hm, hd, ih, UInt8.ofNat_toNat]

/-- Big-endian value of a byte string of any length. -/
def beNat (bs : Bytes) : Nat := leNat bs.reverse

/-- The k low bytes of n, most significant first. -/
def beBytes (k n : Nat) : Bytes := (leBytes k n).reverse

@[simp] theorem beBytes_length (k n : Nat) : (beBytes k n).length = k := by
  rw [beBytes, List.length_reverse, leBytes_length]

theorem beNat_beBytes {k n : Nat} (h : n < 256 ^ k) : beNat (beBytes k n) = n := by
  rw [beNat, beBytes, List.reverse_reverse, leNat_leBytes, Nat.mod_eq_of_lt h]

section Hex

def hexDigit (v : Nat) : UInt8 := if v < 10 then UInt8.ofNat ('0'.toNat + v) else UInt8.ofNat ('a'.toNat + (v - 10))

/-- Two lower-case digits a byte. -/
def hexEncode (bs : Bytes) : Bytes := bs.flatMap fun b => [hexDigit (b.toNat / 16), hexDigit (b.toNat % 16)]

theorem mem_hexEncode {bs : Bytes} {c : UInt8} (h : c ∈ hexEncode bs) : ∃ v < 16, c = hexDigit v := by
  obtain ⟨b, -, hc⟩ := List.mem_flatMap.mp h
  have hb := b.toNat_lt
  simp only [List.mem_cons, List.not_mem_nil, or_false] at hc
  rcases hc with rfl | rfl
  · exact ⟨_, by omega, rfl⟩
  · exact ⟨_, by omega, rfl⟩

private theorem isDigit_of_mem_toString {n : Nat} {d : Char} (h : d ∈ (toString n).toList) : d.isDigit := by
  apply Nat.isDigit_of_mem_toDigits (b := 10) (n := n) (by decide) (by decide)
  simpa [Nat.toString_eq_repr, Nat.repr] using h

theorem mem_decimal {n : Nat} {c : UInt8} (h : c ∈ decimal n) : ∃ v < 10, c = hexDigit v := by
  obtain ⟨d, hd, hc⟩ := List.mem_flatMap.mp h
  have hdigit := isDigit_of_mem_toString hd
  obtain ⟨hlow, hhigh⟩ : 48 ≤ d.val.toNat ∧ d.val.toNat ≤ 57 := Char.isDigit_iff_toNat.mp hdigit
  rw [String.utf8EncodeChar, if_pos (by omega), List.mem_singleton] at hc
  refine ⟨d.val.toNat - 48, by omega, ?_⟩
  rw [hexDigit, if_pos (by omega), hc]
  congr 1
  exact (Nat.add_sub_cancel' hlow).symm

theorem decimal_length_le {n k : Nat} (hk : 0 < k) (h : n < 10 ^ k) : (decimal n).length ≤ k := by
  have hbytes : ∀ cs : List Char, (∀ c ∈ cs, c.isDigit) → (cs.flatMap String.utf8EncodeChar).length = cs.length := by
    intro cs
    induction cs with
    | nil => simp
    | cons c cs ih =>
      intro hcs
      obtain ⟨hc, hcs⟩ := List.forall_mem_cons.mp hcs
      obtain ⟨-, hhigh⟩ : 48 ≤ c.val.toNat ∧ c.val.toNat ≤ 57 := Char.isDigit_iff_toNat.mp hc
      rw [List.flatMap_cons, List.length_append, ih hcs, String.utf8EncodeChar, if_pos (by omega),
        List.length_singleton, List.length_cons, Nat.add_comm]
  have hdigits : (Nat.toDigits 10 n).length ≤ k := (Nat.length_toDigits_le_iff (by decide) hk).mpr h
  rw [decimal, text, hbytes _ fun c hc => isDigit_of_mem_toString hc]
  simpa [Nat.toString_eq_repr, Nat.repr] using hdigits

theorem hexDigit_injective {v w : Nat} (hv : v < 16) (hw : w < 16) (h : hexDigit v = hexDigit w) : v = w :=
  (by decide : ∀ v < 16, ∀ w < 16, hexDigit v = hexDigit w → v = w) v hv w hw h

@[simp] theorem hexEncode_length (bs : Bytes) : (hexEncode bs).length = 2 * bs.length := by
  induction bs with
  | nil => rfl
  | cons b bs ih =>
    rw [hexEncode, List.flatMap_cons, List.length_append, ← hexEncode, ih]
    simp only [List.length_cons, List.length_nil]
    omega

theorem hexEncode_injective {bs cs : Bytes} (h : hexEncode bs = hexEncode cs) : bs = cs := by
  induction bs generalizing cs with
  | nil =>
    have hlen := congrArg List.length h
    rw [hexEncode_length, hexEncode_length] at hlen
    exact (List.length_eq_zero_iff.mp (by simpa using hlen.symm)).symm
  | cons b bs ih =>
    cases cs with
    | nil => cases h
    | cons c cs =>
      have hb := b.toNat_lt
      have hc := c.toNat_lt
      obtain ⟨hhigh, htail⟩ := List.cons.inj h
      obtain ⟨hlow, htail⟩ := List.cons.inj htail
      have hdiv := hexDigit_injective (by omega) (by omega) hhigh
      have hmod := hexDigit_injective (by omega) (by omega) hlow
      rw [UInt8.toNat_inj.mp (by omega : b.toNat = c.toNat), ih htail]

end Hex

/-- p[0] | (p[1] << 8). -/
def le16 (b₀ b₁ : UInt8) : UInt16 := b₀.toUInt16 ||| (b₁.toUInt16 <<< 8)

/-- p[0] | (p[1] << 8) | (p[2] << 16) | (p[3] << 24). -/
def le32 (b₀ b₁ b₂ b₃ : UInt8) : UInt32 :=
  b₀.toUInt32 ||| (b₁.toUInt32 <<< 8) ||| (b₂.toUInt32 <<< 16) ||| (b₃.toUInt32 <<< 24)

private theorem or_shift_eq_add {a b k : Nat} (ha : a < 2 ^ k) : a ||| b <<< k = a + 2 ^ k * b := by
  rw [Nat.or_comm, ← Nat.shiftLeft_add_eq_or_of_lt ha, Nat.shiftLeft_eq, Nat.mul_comm, Nat.add_comm]

private theorem shift_mod {b k w : Nat} (hb : b < 256) (hk : k + 8 ≤ w) : b <<< k % 2 ^ w = b <<< k := by
  apply Nat.mod_eq_of_lt
  rw [Nat.shiftLeft_eq]
  calc b * 2 ^ k < 256 * 2 ^ k := Nat.mul_lt_mul_of_pos_right hb (Nat.two_pow_pos k)
    _ = 2 ^ (8 + k) := by rw [Nat.pow_add]
    _ ≤ 2 ^ w := Nat.pow_le_pow_right (by decide) (by omega)

theorem le16_toNat (b₀ b₁ : UInt8) : (le16 b₀ b₁).toNat = leNat [b₀, b₁] := by
  have h₀ := b₀.toNat_lt
  have h₁ := b₁.toNat_lt
  have s₁ := shift_mod (k := 8) (w := 16) h₁ (by decide)
  simp only [le16, UInt16.toNat_or, UInt16.toNat_shiftLeft, UInt8.toNat_toUInt16, leNat]
  change b₀.toNat ||| b₁.toNat <<< 8 % 2 ^ 16 = _
  rw [s₁, or_shift_eq_add (by omega)]
  omega

theorem le32_toNat (b₀ b₁ b₂ b₃ : UInt8) : (le32 b₀ b₁ b₂ b₃).toNat = leNat [b₀, b₁, b₂, b₃] := by
  have h₀ := b₀.toNat_lt
  have h₁ := b₁.toNat_lt
  have h₂ := b₂.toNat_lt
  have h₃ := b₃.toNat_lt
  have s₁ := shift_mod (k := 8) (w := 32) h₁ (by decide)
  have s₂ := shift_mod (k := 16) (w := 32) h₂ (by decide)
  have s₃ := shift_mod (k := 24) (w := 32) h₃ (by decide)
  simp only [le32, UInt32.toNat_or, UInt32.toNat_shiftLeft, UInt8.toNat_toUInt32, leNat]
  change b₀.toNat ||| b₁.toNat <<< 8 % 2 ^ 32 ||| b₂.toNat <<< 16 % 2 ^ 32 ||| b₃.toNat <<< 24 % 2 ^ 32 = _
  rw [s₁, s₂, s₃, or_shift_eq_add (k := 8) (by omega), or_shift_eq_add (k := 16) (by omega),
    or_shift_eq_add (k := 24) (by omega)]
  omega

/-- The four bytes that store a 32-bit word. -/
def bytes32 (v : UInt32) : Bytes := leBytes 4 v.toNat

/-- The two bytes that store a 16-bit word. -/
def bytes16 (v : UInt16) : Bytes := leBytes 2 v.toNat

/-- The word they store. -/
theorem bytes32_eq (v : UInt32) : ∃ b₀ b₁ b₂ b₃, bytes32 v = [b₀, b₁, b₂, b₃] ∧ le32 b₀ b₁ b₂ b₃ = v := by
  refine ⟨_, _, _, _, rfl, UInt32.toNat_inj.mp ?_⟩
  rw [le32_toNat]
  exact (leNat_leBytes 4 v.toNat).trans (Nat.mod_eq_of_lt v.toNat_lt)

@[simp] theorem bytes32_length (v : UInt32) : (bytes32 v).length = 4 := leBytes_length 4 _
@[simp] theorem bytes16_length (v : UInt16) : (bytes16 v).length = 2 := leBytes_length 2 _

end RootHerald.Lib
