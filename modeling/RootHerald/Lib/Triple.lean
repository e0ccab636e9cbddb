import Mathlib.Tactic.SplitIfs

/-! Pre- and postconditions of programs over an explicit state. A postcondition sees the result
and the state reached. -/
namespace RootHerald.Lib

/-- From every state in P the program ends with a result and a state in Q. -/
def Triple {σ α : Type} (P : σ → Prop) (x : StateM σ α) (Q : α → σ → Prop) : Prop :=
  ∀ s, P s → Q (x.run s).1 (x.run s).2

namespace Triple
variable {σ α β : Type} {P H : σ → Prop} {Q K : α → σ → Prop} {R : β → σ → Prop}

theorem pure {a : α} (h : ∀ s, P s → Q a s) : Triple P (Pure.pure a) Q := h

theorem bind {x : StateM σ α} {f : α → StateM σ β} (hx : Triple P x Q) (hf : ∀ a, Triple (Q a) (f a) R) :
    Triple P (x >>= f) R :=
  fun s hs => hf _ _ (hx s hs)

theorem map {x : StateM σ α} {f : α → β} (hx : Triple P x fun a => R (f a)) : Triple P (f <$> x) R := hx

theorem weaken {x : StateM σ α} (hx : Triple H x K) (hP : ∀ s, P s → H s) (hQ : ∀ a s, K a s → Q a s) :
    Triple P x Q :=
  fun s hs => hQ _ _ (hx s (hP s hs))

theorem post {x : StateM σ α} (hx : Triple P x K) (hQ : ∀ a s, K a s → Q a s) : Triple P x Q :=
  hx.weaken (fun _ h => h) hQ

theorem pre {x : StateM σ α} (hx : Triple H x Q) (hP : ∀ s, P s → H s) : Triple P x Q :=
  hx.weaken hP fun _ _ h => h

theorem ite {c : Prop} [Decidable c] {x y : StateM σ α} (hx : c → Triple P x Q) (hy : ¬ c → Triple P y Q) :
    Triple P (if c then x else y) Q := by
  split_ifs with hc
  · exact hx hc
  · exact hy hc

/-- A fact about no state holds across every program. -/
theorem frame {c : Prop} (x : StateM σ α) : Triple (fun _ => c) x fun _ _ => c := fun _ h => h

theorem any (x : StateM σ α) : Triple P x fun _ _ => True := fun _ _ => trivial

theorem and {x : StateM σ α} (hQ : Triple P x Q) (hK : Triple H x K) :
    Triple (fun s => P s ∧ H s) x fun a s => Q a s ∧ K a s :=
  fun s hs => ⟨hQ s hs.1, hK s hs.2⟩

/-- A premise of the precondition may be used to choose the proof. -/
theorem assume {c : Prop} {x : StateM σ α} (hc : ∀ s, P s → c) (hx : c → Triple P x Q) : Triple P x Q :=
  fun s hs => hx (hc s hs) s hs

/-- A witness in the precondition may be fixed in front of the program. -/
theorem witness {ι : Type} {P : ι → σ → Prop} {x : StateM σ α} (hx : ∀ i, Triple (P i) x Q) :
    Triple (fun s => ∃ i, P i s) x Q :=
  fun s ⟨i, hs⟩ => hx i s hs

/-- A specification for every value of an observation of the first state. -/
theorem observe {τ : Type} {f : σ → τ} {x : StateM σ α} {Q : τ → α → σ → Prop}
    (hx : ∀ t, Triple (fun s => f s = t) x (Q t)) : Triple P x fun a s' => ∃ s, P s ∧ Q (f s) a s' :=
  fun s hs => ⟨s, hs, hx (f s) s rfl⟩

theorem update {f : σ → σ} {Q : PUnit → σ → Prop} (h : ∀ s, P s → Q ⟨⟩ (f s)) : Triple P (modify f) Q := h

end Triple
end RootHerald.Lib
