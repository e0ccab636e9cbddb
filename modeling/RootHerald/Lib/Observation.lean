import RootHerald.Lib.SharedState

/-! What a user of a state machine can tell of its state: the replies to whatever it asks next. -/
namespace RootHerald.Lib.Observation
variable {σ ο ρ : Type}

/-- The reply to each operation, in order. -/
def replies (step : σ → ο → σ) (answer : σ → ο → ρ) : σ → List ο → List ρ
  | _, [] => []
  | s, op :: ops => answer s op :: replies step answer (step s op) ops

variable (step : σ → ο → σ) (answer : σ → ο → ρ)

/-- No later operations are answered differently. -/
def Indistinct (s s' : σ) : Prop := ∀ ops, replies step answer s ops = replies step answer s' ops

variable {step answer} {s s' : σ}

theorem indistinct_of_eq (h : s = s') : Indistinct step answer s s' := fun _ => h ▸ rfl

/-- One operation answered differently tells two states apart. -/
theorem Indistinct.answer_eq (h : Indistinct step answer s s') (op : ο) : answer s op = answer s' op :=
  (List.cons.inj (h [op])).1

end RootHerald.Lib.Observation
