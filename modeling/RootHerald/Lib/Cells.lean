import Mathlib.Logic.Function.Basic
import RootHerald.Lib.SharedState

/-! Cells that are updated one at a time: the value of a cell depends on its own updates only. -/
namespace RootHerald.Lib.Cells
open SharedState
variable {ι α ε : Type} [DecidableEq ι]

def update (step : α → ε → α) (cells : ι → α) (op : ι × ε) : ι → α := Function.update cells op.1 (step (cells op.1) op.2)

def afterAll (step : α → ε → α) (cells : ι → α) (ops : List (ι × ε)) : ι → α := ops.foldl (update step) cells

variable {step : α → ε → α}

theorem afterAll_append (cells : ι → α) (ops ops' : List (ι × ε)) :
    afterAll step cells (ops ++ ops') = afterAll step (afterAll step cells ops) ops' :=
  List.foldl_append

/-- A cell after the updates, from its own updates in order. -/
theorem afterAll_cell (cells : ι → α) (ops : List (ι × ε)) (i : ι) :
    afterAll step cells ops i = after step (cells i) (own i ops) := by
  induction ops generalizing cells with
  | nil => rfl
  | cons op ops ih =>
    obtain ⟨j, e⟩ := op
    refine (ih (update step cells (j, e))).trans ?_
    by_cases hj : j = i
    · subst hj
      rw [own_cons_self, update, Function.update_self]
      rfl
    · rw [own_cons_other hj, update, Function.update_of_ne (Ne.symm hj)]

end RootHerald.Lib.Cells
