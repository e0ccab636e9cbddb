import RootHerald.Lib.Observation
import RootHerald.Protocol

/-! What GetStatus is for: to say whether an earlier Enroll returned OK, and to change nothing. -/
namespace RootHerald
open Lib Lib.Observation

/-- A driver with the state it keeps outside the process. -/
structure Driver (σ ο ρ : Type) where
  step : σ → ο → σ
  answer : σ → ο → ρ
  /-- The device id of an Enroll that returned OK. -/
  enrolled : ρ → Option Bytes
  /-- What a GetStatus that returned OK reports. -/
  reported : ρ → Option DeviceStatus
  asksStatus : ο → Prop

namespace Driver
variable {σ ο ρ : Type} (d : Driver σ ο ρ)

def after (s : σ) (calls : List ο) : σ := calls.foldl d.step s

/-- The device id of the last Enroll that returned OK. -/
def enrolledAs (s : σ) (calls : List ο) : Option Bytes :=
  ((replies d.step d.answer s calls).filterMap d.enrolled).getLast?

/-- At each place of the run the report agrees with what Enroll returned before it, and no GetStatus
changes what a later call observes. -/
def Truthful (agrees : Option Bytes → DeviceStatus → Prop) (s : σ) (calls : List ο) : Prop :=
  ∀ front call back, calls = front ++ call :: back →
    (∀ status, d.reported (d.answer (d.after s front) call) = some status → agrees (d.enrolledAs s front) status) ∧
    (d.asksStatus call → Indistinct d.step d.answer (d.step (d.after s front) call) (d.after s front))

/-- Some earlier call was of a kind, in the state it met. -/
def Earlier (kind : σ → ο → Prop) (s : σ) (calls : List ο) : Prop :=
  ∃ front call back, calls = front ++ call :: back ∧ kind (d.after s front) call

variable {d} {kind : σ → ο → Prop}

theorem earlier_cons {s : σ} {call : ο} {calls : List ο} :
    d.Earlier kind s (call :: calls) ↔ kind s call ∨ d.Earlier kind (d.step s call) calls := by
  constructor
  · rintro ⟨front, c, back, heq, hkind⟩
    cases front with
    | nil =>
      obtain ⟨rfl, -⟩ := List.cons.inj heq
      exact .inl hkind
    | cons c' front =>
      obtain ⟨rfl, htail⟩ := List.cons.inj heq
      exact .inr ⟨front, c, back, htail, hkind⟩
  · rintro (hkind | ⟨front, c, back, rfl, hkind⟩)
    · exact ⟨[], call, calls, rfl, hkind⟩
    · exact ⟨call :: front, c, back, rfl, hkind⟩

/-- A device id is known exactly if an earlier call is one after which Enroll returns OK. -/
theorem enrolledAs_isSome_iff (hkind : ∀ s call, (d.enrolled (d.answer s call)).isSome ↔ kind s call) (s : σ)
    (calls : List ο) : (d.enrolledAs s calls).isSome ↔ d.Earlier kind s calls := by
  unfold enrolledAs
  rw [List.getLast?_isSome]
  induction calls generalizing s with
  | nil => exact iff_of_false (fun h => absurd rfl h) fun ⟨front, call, back, heq, _⟩ => by simp at heq
  | cons call calls ih =>
    rw [earlier_cons, ← ih (d.step s call), replies, ← hkind, List.filterMap_cons]
    cases d.enrolled (d.answer s call) with
    | none => exact ⟨.inr, fun h => h.resolve_left Bool.false_ne_true⟩
    | some deviceId => exact iff_of_true (List.cons_ne_nil _ _) (.inl rfl)

end Driver
end RootHerald
