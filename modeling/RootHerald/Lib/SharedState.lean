import Mathlib.Data.List.Basic

/-! A state machine that several users share, and when a user gets the answers it would get alone. -/
namespace RootHerald.Lib.SharedState
variable {ι σ ο ρ : Type} [DecidableEq ι]

/-- The entries of one user. -/
def own {α : Type} (u : ι) (entries : List (ι × α)) : List (ι × α) := entries.filter fun e => e.1 = u

def after (step : σ → ο → σ) (s : σ) (ops : List (ι × ο)) : σ := ops.foldl (fun s op => step s op.2) s

/-- The answer to each operation, in order. -/
def answers (step : σ → ο → σ) (answer : σ → ο → ρ) : σ → List (ι × ο) → List (ι × ρ)
  | _, [] => []
  | s, op :: ops => (op.1, answer s op.2) :: answers step answer (step s op.2) ops

section Own
variable {α : Type} {u : ι}

theorem own_cons_self (a : α) (entries : List (ι × α)) : own u ((u, a) :: entries) = (u, a) :: own u entries :=
  List.filter_cons_of_pos (decide_eq_true rfl)

theorem own_cons_other {v : ι} (h : v ≠ u) (a : α) (entries : List (ι × α)) :
    own u ((v, a) :: entries) = own u entries :=
  List.filter_cons_of_neg fun heq => h (of_decide_eq_true heq)

end Own

section Places
variable {α : Type} {P : List α → α → Prop}

/-- What holds at every place of a list holds at the first, and at every place behind it. -/
theorem forall_places_cons {a : α} {as : List α} : (∀ front b back, a :: as = front ++ b :: back → P front b) ↔
    P [] a ∧ ∀ front b back, as = front ++ b :: back → P (a :: front) b := by
  constructor
  · intro h
    refine ⟨h [] a as rfl, fun front b back heq => ?_⟩
    exact h (a :: front) b back (by rw [heq, List.cons_append])
  · rintro ⟨hfirst, hrest⟩ front b back heq
    cases front with
    | nil =>
      obtain ⟨rfl, -⟩ := List.cons.inj heq
      exact hfirst
    | cons c front =>
      obtain ⟨rfl, htail⟩ := List.cons.inj heq
      exact hrest front b back htail

end Places

variable {step : σ → ο → σ} {answer : σ → ο → ρ} {u : ι}

/-- Alone a user gets the same answers exactly if it does at each of its operations. -/
theorem own_answers_iff (ops : List (ι × ο)) (s s' : σ) :
    own u (answers step answer s ops) = answers step answer s' (own u ops) ↔
      ∀ front op back, ops = front ++ op :: back → op.1 = u →
        answer (after step s front) op.2 = answer (after step s' (own u front)) op.2 := by
  induction ops generalizing s s' with
  | nil => exact iff_of_true rfl fun front op back heq => absurd heq (by simp)
  | cons op ops ih =>
    obtain ⟨v, o⟩ := op
    rw [forall_places_cons, answers]
    by_cases hv : v = u
    · subst hv
      rw [own_cons_self, own_cons_self, answers, List.cons.injEq, Prod.mk.injEq, ih (step s o) (step s' o)]
      simp only [own_cons_self, true_and, forall_const]
      rfl
    · rw [own_cons_other hv, own_cons_other hv, ih (step s o) s', and_iff_right fun h => absurd h hv]
      simp only [own_cons_other hv]
      rfl

end RootHerald.Lib.SharedState
