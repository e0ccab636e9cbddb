import RootHerald.Lib.Bytes

/-! Memory reads that fail outside the vector they index. A pointer into a vector
is the list of bytes at and after it, so a read past the end finds none. -/
namespace RootHerald.Lib

inductive Fault where
  | outOfBounds
  deriving DecidableEq, Repr

abbrev Checked := Except Fault

@[simp] theorem ok_bind {α β : Type} (a : α) (f : α → Checked β) : (Except.ok a >>= f) = f a := rfl

@[simp] theorem error_bind {α β : Type} (e : Fault) (f : α → Checked β) :
    ((Except.error e : Checked α) >>= f) = .error e := rfl

@[simp] theorem pure_eq_ok {α : Type} (a : α) : (pure a : Checked α) = .ok a := rfl

theorem bind_eq_ok {α β : Type} {x : Checked α} {f : α → Checked β} {b : β} (h : (x >>= f) = .ok b) :
    ∃ a, x = .ok a ∧ f a = .ok b := by
  cases x with
  | error e => cases h
  | ok a => exact ⟨a, rfl, h⟩

/-- A branch reads as the unchecked one where both of its sides do. -/
theorem ite_ok {α : Type} {c : Prop} [Decidable c] {x y : Checked α} {a b : α} (hthen : c → x = .ok a)
    (helse : ¬ c → y = .ok b) : (if c then x else y) = .ok (if c then a else b) := by
  by_cases h : c
  · rw [if_pos h, if_pos h]
    exact hthen h
  · rw [if_neg h, if_neg h]
    exact helse h

/-- A fold over steps whose success depends on the element alone. -/
theorem foldlM_ok_iff {α β : Type} {f : β → α → Checked β} {P : α → Prop}
    (hf : ∀ b a, (∃ b', f b a = .ok b') ↔ P a) (as : List α) (b : β) :
    (∃ b', as.foldlM f b = .ok b') ↔ ∀ a ∈ as, P a := by
  induction as generalizing b with
  | nil => exact ⟨fun _ _ h => by simp at h, fun _ => ⟨b, rfl⟩⟩
  | cons a as ih =>
    rw [List.foldlM_cons, List.forall_mem_cons, ← hf b a]
    constructor
    · rintro ⟨b', h⟩
      obtain ⟨b₁, h₁, h₂⟩ := bind_eq_ok h
      exact ⟨⟨b₁, h₁⟩, (ih b₁).mp ⟨b', h₂⟩⟩
    · rintro ⟨⟨b₁, h₁⟩, h₂⟩
      rw [h₁, ok_bind]
      exact (ih b₁).mpr h₂

/-- What every step keeps, a fold that comes through keeps. -/
theorem foldlM_keeps {α β : Type} {f : β → α → Checked β} {P : β → Prop}
    (hf : ∀ b a b', P b → f b a = .ok b' → P b') {as : List α} {b b' : β} (h : as.foldlM f b = .ok b')
    (hb : P b) : P b' := by
  induction as generalizing b with
  | nil =>
    cases h
    exact hb
  | cons a as ih =>
    rw [List.foldlM_cons] at h
    obtain ⟨b₁, h₁, h₂⟩ := bind_eq_ok h
    exact ih h₂ (hf b a b₁ hb h₁)

def readU8 : Bytes → Checked UInt8
  | b₀ :: _ => .ok b₀
  | _ => .error .outOfBounds

def readU16LE : Bytes → Checked UInt16
  | b₀ :: b₁ :: _ => .ok (le16 b₀ b₁)
  | _ => .error .outOfBounds

def readU32LE : Bytes → Checked UInt32
  | b₀ :: b₁ :: b₂ :: b₃ :: _ => .ok (le32 b₀ b₁ b₂ b₃)
  | _ => .error .outOfBounds

/-- memcpy of n bytes out of a vector. -/
def readRange (p : Bytes) (n : Nat) : Checked Bytes :=
  if n ≤ p.length then .ok (p.take n) else .error .outOfBounds

/-- memcpy into a 64-bit unsigned integer. -/
def readU64LE (p : Bytes) : Checked UInt64 := do
  return UInt64.ofNat (leNat (← readRange p 8))

theorem readU8_ok {p : Bytes} (h : p ≠ []) : ∃ b, readU8 p = .ok b := by
  cases p with
  | nil => exact absurd rfl h
  | cons b p => exact ⟨b, rfl⟩

theorem readU16LE_error {p : Bytes} (h : p.length < 2) : readU16LE p = .error .outOfBounds := by
  match p, h with
  | [], _ => rfl
  | [_], _ => rfl

theorem readU32LE_error {p : Bytes} (h : p.length < 4) : readU32LE p = .error .outOfBounds := by
  match p, h with
  | [], _ => rfl
  | [_], _ => rfl
  | [_, _], _ => rfl
  | [_, _, _], _ => rfl

theorem readRange_ok {p : Bytes} {n : Nat} (h : n ≤ p.length) : readRange p n = .ok (p.take n) := if_pos h

theorem readU64LE_ok {p : Bytes} (h : 8 ≤ p.length) :
    readU64LE p = .ok (UInt64.ofNat (leNat (p.take 8))) := by
  simp [readU64LE, readRange, h]

/-- size_t subtraction. -/
def sub64 (a b : Nat) : Nat := if b ≤ a then a - b else a + 2 ^ 64 - b

@[simp] theorem sub64_of_le {a b : Nat} (h : b ≤ a) : sub64 a b = a - b := if_pos h

/-- A pointer with the count the code keeps beside it. -/
structure Cursor where
  p : Bytes
  remaining : Nat

namespace Cursor

/-- p += n; remaining -= n. -/
def advance (c : Cursor) (n : Nat) : Cursor := ⟨c.p.drop n, sub64 c.remaining n⟩

@[simp] theorem advance_append (q rest : Bytes) :
    advance ⟨q ++ rest, (q ++ rest).length⟩ q.length = ⟨rest, rest.length⟩ := by
  simp [advance]

end Cursor
end RootHerald.Lib
