import RootHerald.Windows.Enrollment
import Mathlib.Tactic.Tauto

/-! The persistent handle across an EnrollComplete that fails. -/
namespace RootHerald.Windows
open Lib

/-- The slot holds the AK of the enrollment in flight, for which a secret was released in between. -/
def HoldsActivated (inFlight : InFlight) (t t' : Tpm) : Prop :=
  ∃ p ∈ inFlight, ∃ ak ek secret, t.keyAt (contextOf p.tpm) p.akHandle = some ak ∧
    t.keyAt (contextOf p.tpm) p.ekHandle = some ek ∧ t'.persistent = some ak ∧ secret ≠ [] ∧
    ∃ es, t'.log = es ++ t.log ∧ .activated ak ek secret ∈ es

variable {p : TbsKeyProvider} {t t' : Tpm} {status : RootHeraldResult}

/-- An eviction of a key that was activated. -/
theorem Eviction.slot {t₁ : Tpm} {secret : Bytes} {evicted : Bool} (hsecret : secret ≠ [])
    (hact : Activation (contextOf p.tpm) p.akHandle p.ekHandle t secret t₁)
    (hevict : Eviction (contextOf p.tpm) p.akHandle t₁ evicted t') :
    t'.persistent = t.persistent ∨ t'.persistent = none ∨ HoldsActivated (some p) t t' := by
  cases hact with
  | refused => exact absurd rfl hsecret
  | released hak hek hreleased =>
    cases hevict with
    | kept => exact .inl rfl
    | cleared _ => exact .inr (.inl rfl)
    | stored hkey =>
      obtain rfl := Option.some.inj (hak.symm.trans hkey)
      exact .inr (.inr ⟨p, rfl, _, _, _, hak, hek, rfl, hreleased hsecret, [_, _], rfl, by simp⟩)
    | replaced hkey =>
      obtain rfl := Option.some.inj (hak.symm.trans hkey)
      exact .inr (.inr ⟨p, rfl, _, _, _, hak, hek, rfl, hreleased hsecret, [_, _, _], rfl, by simp⟩)

theorem HoldsActivated.of_local {inFlight : InFlight} {t'' : Tpm} {context : Context} (h : HoldsActivated inFlight t t')
    (hlocal : Local context [] t' t'') : HoldsActivated inFlight t t'' := by
  obtain ⟨p, hp, ak, ek, secret, hak, hek, hslot, hsecret, es, hlog, hmem⟩ := h
  exact ⟨p, hp, ak, ek, secret, hak, hek, hlocal.persistent.trans hslot, hsecret, es, hlocal.log.trans hlog, hmem⟩

theorem Activation.slot {context : Context} {akHandle ekHandle : Handle} {secret : Bytes}
    (hact : Activation context akHandle ekHandle t secret t') : t'.persistent = t.persistent := by
  cases hact with
  | refused => rfl
  | released _ _ _ => rfl

theorem Completion.slot (h : Completion p t status t') :
    (status = .attestationFailed ∧ t'.persistent = t.persistent) ∨
      (status ≠ .attestationFailed ∧ status ≠ .invalidParam ∧ status ≠ .notEnrolled ∧
        (t'.persistent = t.persistent ∨ t'.persistent = none ∨ HoldsActivated (some p) t t')) := by
  cases h with
  | refused hact hlocal => exact .inl ⟨rfl, hlocal.persistent.trans hact.slot⟩
  | activated hsecret hact hevict hlocal hstatus =>
    have hother : status ≠ .attestationFailed ∧ status ≠ .invalidParam ∧ status ≠ .notEnrolled := by
      split_ifs at hstatus with hevicted
      · rcases hstatus with rfl | rfl <;> decide
      · subst hstatus
        decide
    refine .inr ⟨hother.1, hother.2.1, hother.2.2, ?_⟩
    rw [hlocal.persistent]
    exact (hevict.slot hsecret hact).imp_right (.imp_right fun h => h.of_local hlocal)

/-- What a call of EnrollComplete may do to the slot: nothing when it fails in front of a successful
activation, and in no case more than to empty it or to store the AK that was activated. -/
def SlotContract (inFlight : InFlight) (t : Tpm) (status : RootHeraldResult) (t' : Tpm) : Prop :=
  (status ∈ [RootHeraldResult.invalidParam, .notEnrolled, .attestationFailed] → t'.persistent = t.persistent) ∧
    (t'.persistent = t.persistent ∨ t'.persistent = none ∨ HoldsActivated inFlight t t')

theorem SlotContract.of_eq {inFlight : InFlight} (h : t'.persistent = t.persistent) : SlotContract inFlight t status t' :=
  ⟨fun _ => h, .inl h⟩

theorem Completion.slotContract (h : Completion p t status t') : SlotContract (some p) t status t' := by
  rcases h.slot with ⟨-, heq⟩ | ⟨hrefused, hinvalid, hnone, hslot⟩
  · exact .of_eq heq
  · refine ⟨fun hmem => ?_, hslot⟩
    simp only [List.mem_cons, List.not_mem_nil, or_false] at hmem
    tauto

/-- EnrollComplete from a TPM, with what becomes of its commands. -/
def completeFrom (sys : System) (challengeJson : Option Bytes) (outActivateJson allocated : Bool) (inFlight : InFlight)
    (t : Tpm) (outcomes : List Outcome) : RootHeraldResult × Tpm :=
  let (r, w) := (rootHeraldEnrollComplete sys challengeJson outActivateJson allocated inFlight).run { tpm := t, outcomes }
  (r.status, w.tpm)

/-- For every slot, enrollment in flight, challenge and pattern of failing commands and allocations. -/
theorem enrollComplete_slotContract (sys : System) (challengeJson : Option Bytes) (outActivateJson allocated : Bool)
    (inFlight : InFlight) (t : Tpm) (outcomes : List Outcome) :
    SlotContract inFlight t (completeFrom sys challengeJson outActivateJson allocated inFlight t outcomes).1
      (completeFrom sys challengeJson outActivateJson allocated inFlight t outcomes).2 := by
  cases inFlight with
  | none =>
    rw [completeFrom, rootHeraldEnrollComplete_none]
    exact .of_eq rfl
  | some p =>
    obtain ⟨-, -, heq⟩ | ⟨-, hcomp⟩ :=
      rootHeraldEnrollComplete_outcome p t sys challengeJson outActivateJson allocated { tpm := t, outcomes } rfl
    · exact .of_eq (congrArg Tpm.persistent heq)
    · exact hcomp.slotContract

section Sample

/-- An enrolled device in the middle of a second enrollment. -/
def enrolledTpm : Tpm where
  openCredential := fun _ _ _ _ => some [7]
  objects := [((0, 0x80000001), sampleKey 1), ((0, 0x80000002), sampleKey 2)]
  persistent := some (sampleKey 3)
  contexts := 1

def sampleProvider : TbsKeyProvider := ⟨some 0, 0x80000001, 0x80000002, (sampleKey 2).publicArea⟩

/-- The second enrollment clears the slot, and then the TPM has no space left for the new key. -/
theorem enrollComplete_empties_slot :
    ¬ ∀ (sys : System) (challengeJson : Option Bytes) (outActivateJson allocated : Bool) (inFlight : InFlight) (t : Tpm)
      (outcomes : List Outcome),
      (completeFrom sys challengeJson outActivateJson allocated inFlight t outcomes).1 ≠ .ok →
        (completeFrom sys challengeJson outActivateJson allocated inFlight t outcomes).2.persistent = t.persistent := by
  intro h
  have hslot := h sampleSystem (some sampleChallenge) true true (some sampleProvider) enrolledTpm
    [answered, answered, answered, answered, answered, answered, .refused 0x14A]
  exact absurd (hslot (by decide +kernel)) (by decide +kernel)

end Sample
end RootHerald.Windows
