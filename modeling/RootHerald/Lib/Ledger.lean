import Mathlib.Data.Multiset.AddSub

/-! Resources that are taken and given back. Runs are listed newest use first. -/
namespace RootHerald.Lib

inductive Use (ρ : Type) where
  | taken (r : ρ)
  | released (r : ρ)
  deriving DecidableEq

namespace Use
variable {ρ : Type} [DecidableEq ρ]

/-- What was taken and not released. -/
def held : List (Use ρ) → Multiset ρ
  | [] => 0
  | .taken r :: us => r ::ₘ held us
  | .released r :: us => (held us).erase r

/-- Every release is of something held then, so nothing is released twice. -/
def Sound : List (Use ρ) → Prop
  | [] => True
  | .taken _ :: us => Sound us
  | .released r :: us => r ∈ held us ∧ Sound us

/-- A sound run after which exactly these are held. -/
structure Holding (us : List (Use ρ)) (rs : Multiset ρ) : Prop where
  sound : Sound us
  held_eq : held us = rs

variable {us : List (Use ρ)} {rs : Multiset ρ} {r : ρ}

theorem Holding.nil : Holding ([] : List (Use ρ)) 0 := ⟨trivial, rfl⟩

theorem Holding.take (h : Holding us rs) (r : ρ) : Holding (.taken r :: us) (r ::ₘ rs) :=
  ⟨h.sound, congrArg (r ::ₘ ·) h.held_eq⟩

theorem Holding.release (h : Holding us (r ::ₘ rs)) : Holding (.released r :: us) rs where
  sound := ⟨by rw [h.held_eq]; exact Multiset.mem_cons_self r rs, h.sound⟩
  held_eq := by rw [held, h.held_eq, Multiset.erase_cons_head]

/-- In a sound run every taking is released once or still held. -/
theorem Sound.conserved (h : Sound us) (r : ρ) :
    us.count (.taken r) = us.count (.released r) + (held us).count r := by
  induction us with
  | nil => rfl
  | cons u us ih =>
    cases u with
    | taken r' =>
      have ih := ih h
      rw [List.count_cons, List.count_cons, held, Multiset.count_cons, ih]
      by_cases heq : r = r'
      · subst heq
        simp only [BEq.rfl, ↓reduceIte, beq_iff_eq, reduceCtorEq, Nat.add_zero]
        omega
      · simp [heq, Ne.symm heq]
    | released r' =>
      obtain ⟨hmem, h⟩ := h
      have ih := ih h
      rw [List.count_cons, List.count_cons, held, ih]
      by_cases heq : r = r'
      · subst heq
        have hpos := Multiset.count_pos.mpr hmem
        rw [Multiset.count_erase_self]
        simp only [BEq.rfl, ↓reduceIte, beq_iff_eq, reduceCtorEq, Nat.add_zero]
        omega
      · rw [Multiset.count_erase_of_ne heq]
        simp [Ne.symm heq]

end Use
end RootHerald.Lib
