import Mathlib.Tactic.Common

/-! Loops whose body goes on with a state or leaves with a result, and what a run of rounds keeps. -/
namespace RootHerald.Lib

/-- What a round of a loop ends in. -/
inductive Round (σ ρ : Type) where
  | again (s : σ)
  | leave (r : ρ)

namespace Round
variable {σ ρ : Type} (body : σ → Round σ ρ)

/-- The result, if the loop is left in one of its first n rounds. -/
def loop : Nat → σ → Option ρ
  | 0, _ => none
  | n + 1, s =>
    match body s with
    | .again s => loop n s
    | .leave r => some r

/-- The state behind n rounds, if the loop is left in none of them. -/
def after : Nat → σ → Option σ
  | 0, s => some s
  | n + 1, s =>
    match body s with
    | .again s => after n s
    | .leave _ => none

variable {body} {s s' : σ} {r : ρ} {n : Nat}

theorem after_succ (n : Nat) (s : σ) : after body (n + 1) s = (after body n s).bind fun s => after body 1 s := by
  induction n generalizing s with
  | zero => rfl
  | succ n ih =>
    rw [after]
    cases hs : body s with
    | again s' => simp only [after, hs] at ih ⊢; exact ih s'
    | leave r => simp only [after, hs, Option.bind_none]

/-- A loop is left in the round behind those it went on in. -/
theorem loop_eq_some_iff : loop body n s = some r ↔ ∃ i < n, ∃ s', after body i s = some s' ∧ body s' = .leave r := by
  induction n generalizing s with
  | zero =>
    constructor
    · intro h
      cases h
    · rintro ⟨i, hi, -⟩
      exact absurd hi (Nat.not_lt_zero i)
  | succ n ih =>
    rw [loop]
    cases hs : body s with
    | again s' =>
      rw [ih]
      constructor
      · rintro ⟨i, hi, s'', hafter, hleave⟩
        exact ⟨i + 1, Nat.succ_lt_succ hi, s'', by rw [after, hs]; exact hafter, hleave⟩
      · rintro ⟨i, hi, s'', hafter, hleave⟩
        cases i with
        | zero =>
          cases hafter
          cases hs.symm.trans hleave
        | succ i =>
          rw [after, hs] at hafter
          exact ⟨i, Nat.lt_of_succ_lt_succ hi, s'', hafter, hleave⟩
    | leave r' =>
      constructor
      · intro h
        exact ⟨0, Nat.succ_pos n, s, rfl, hs.trans (congrArg _ (Option.some.inj h))⟩
      · rintro ⟨i, -, s'', hafter, hleave⟩
        cases i with
        | zero =>
          cases hafter
          cases hs.symm.trans hleave
          rfl
        | succ i =>
          rw [after, hs] at hafter
          cases hafter

/-- A loop that is not left goes on. -/
theorem after_of_loop_eq_none (h : loop body n s = none) : ∃ s', after body n s = some s' := by
  induction n generalizing s with
  | zero => exact ⟨s, rfl⟩
  | succ n ih =>
    rw [loop] at h
    cases hs : body s with
    | again s' =>
      rw [hs] at h
      obtain ⟨s'', hafter⟩ := ih h
      exact ⟨s'', by rw [after, hs]; exact hafter⟩
    | leave r =>
      rw [hs] at h
      cases h

/-- More rounds change no result. -/
theorem loop_mono {m : Nat} (h : loop body n s = some r) (hnm : n ≤ m) : loop body m s = some r := by
  obtain ⟨i, hi, hleave⟩ := loop_eq_some_iff.1 h
  exact loop_eq_some_iff.2 ⟨i, Nat.lt_of_lt_of_le hi hnm, hleave⟩

/-- However many rounds are allowed, there is one result. -/
theorem loop_unique {m : Nat} {r' : ρ} (h : loop body n s = some r) (h' : loop body m s = some r') : r = r' := by
  have hmax := loop_mono h (Nat.le_max_left n m)
  rw [loop_mono h' (Nat.le_max_right n m)] at hmax
  exact (Option.some.inj hmax).symm

section Invariant
variable {Inv : Nat → σ → Prop}

/-- What holds before the first round, and behind each round that goes on. -/
theorem after_invariant (hstart : Inv 0 s) (hround : ∀ i s s', Inv i s → body s = .again s' → Inv (i + 1) s')
    (h : after body n s = some s') : Inv n s' := by
  induction n generalizing s' with
  | zero =>
    cases h
    exact hstart
  | succ n ih =>
    rw [after_succ] at h
    obtain ⟨s₁, h₁, h₂⟩ := Option.bind_eq_some_iff.mp h
    rw [after] at h₂
    split at h₂
    · rename_i s₂ hs₂
      cases h₂
      exact hround n s₁ s' (ih h₁) hs₂
    · cases h₂

/-- A loop that has to go on n times does. -/
theorem after_progress (hstart : Inv 0 s) (hround : ∀ i s s', Inv i s → body s = .again s' → Inv (i + 1) s')
    (hagain : ∀ i < n, ∀ s, Inv i s → ∃ s', body s = .again s') : ∃ s', after body n s = some s' ∧ Inv n s' := by
  induction n with
  | zero => exact ⟨s, rfl, hstart⟩
  | succ n ih =>
    obtain ⟨s₁, h₁, hinv⟩ := ih fun i hi => hagain i (Nat.lt_succ_of_lt hi)
    obtain ⟨s₂, h₂⟩ := hagain n (Nat.lt_succ_self n) s₁ hinv
    refine ⟨s₂, ?_, hround n s₁ s₂ hinv h₂⟩
    rw [after_succ, h₁, Option.bind_some, after, h₂]
    rfl

end Invariant
end Round
end RootHerald.Lib
