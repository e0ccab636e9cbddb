import RootHerald.Lib.Triple

/-! Programs over a richer state that do on a part of it what a program over that part does. -/
namespace RootHerald.Lib

/-- Seen through π the program is y, its result seen through e. -/
def Projects {σ τ α β : Type} (π : σ → τ) (e : α → β) (x : StateM σ α) (y : StateM τ β) : Prop :=
  ∀ s, e (x s).1 = (y (π s)).1 ∧ π (x s).2 = (y (π s)).2

namespace Projects
variable {σ τ α β γ δ : Type} {π : σ → τ} {e : α → β} {e' : γ → δ}

theorem pure (a : α) : Projects π e (Pure.pure a) (Pure.pure (e a)) := fun _ => ⟨rfl, rfl⟩

theorem bind {x : StateM σ α} {y : StateM τ β} {f : α → StateM σ γ} {g : β → StateM τ δ} (hx : Projects π e x y)
    (hf : ∀ a, Projects π e' (f a) (g (e a))) : Projects π e' (x >>= f) (y >>= g) := by
  intro s
  obtain ⟨hresult, hstate⟩ := hx s
  have h := hf (x s).1 (x s).2
  rw [hstate, hresult] at h
  exact h

/-- Steps that change nothing of the part stand anywhere. -/
theorem skip {x : StateM σ α} {f : α → StateM σ γ} {y : StateM τ δ} (hx : ∀ s, π (x s).2 = π s)
    (hf : ∀ a, Projects π e' (f a) y) : Projects π e' (x >>= f) y := by
  intro s
  have h := hf (x s).1 (x s).2
  rw [hx] at h
  exact h

theorem ite {c : Prop} [Decidable c] {x x' : StateM σ α} {y y' : StateM τ β} (hx : Projects π e x y)
    (hx' : Projects π e x' y') : Projects π e (if c then x else x') (if c then y else y') := by
  split_ifs
  · exact hx
  · exact hx'

end Projects
end RootHerald.Lib
