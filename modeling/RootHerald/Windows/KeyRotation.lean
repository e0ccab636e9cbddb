import RootHerald.Windows.Enrollment
import RootHerald.Windows.JsonReading
import RootHerald.Windows.PrimaryKeys

/-! Key rotation: which public areas the EnrollBegin calls of a run emit, on a TPM that derives primary
keys from the seed of their hierarchy. -/
namespace RootHerald.Windows
open Lib

section Device
variable {σ : Type} (sys : System) (derive : σ → Bytes → Bytes → Key)

/-- The process, and the seed of each hierarchy by its handle. -/
structure Device (σ : Type) where
  process : Process
  seeds : Nat → σ

/-- A call, or a TPM2_Clear by anyone between two calls, with the new seed of the owner hierarchy. -/
inductive DeviceStep (σ : Type) where
  | call (c : Call)
  | clear (seed : σ)

def Tpm.cleared (tpm : Tpm) : Tpm := { tpm with objects := [], persistent := none }

def Device.step (d : Device σ) : DeviceStep σ → Device σ
  | .call c => { d with process := d.process.step sys c }
  | .clear seed => {
    process := { d.process with tpm := d.process.tpm.cleared }
    seeds := Function.update d.seeds Hierarchy.owner.handle seed }

/-- The key the TPM derives from a CreatePrimary of the client. -/
def derivedKey (seeds : Nat → σ) (hierarchy : Hierarchy) : Option Key :=
  (unmarshalCreatePrimary (createPrimaryCommand hierarchy)).map fun cmd =>
    derive (seeds cmd.primaryHandle) cmd.inSensitive cmd.inPublic

def isDerived (seeds : Nat → σ) : Event → Bool
  | .created hierarchy key => derivedKey derive seeds hierarchy = some key
  | _ => true

/-- What a call added to the log. -/
def newEvents (t t' : Tpm) : List Event := t'.log.take (t'.log.length - t.log.length)

/-- Every key created along the run is the derived one. -/
def Device.Derives (d : Device σ) : List (DeviceStep σ) → Prop
  | [] => True
  | step :: steps =>
    (∀ e ∈ newEvents d.process.tpm (d.step sys step).process.tpm, isDerived derive d.seeds e) ∧
      (d.step sys step).Derives steps

/-- The text a successful EnrollBegin hands out. -/
def Process.emitted (s : Process) : Call → Option Bytes
  | .enrollBegin outEnrollJson env outcomes =>
    let r := ((rootHeraldEnrollBegin sys outEnrollJson env s.inFlight).run { tpm := s.tpm, outcomes }).1
    if r.status = .ok then r.json else none
  | _ => none

/-- The public areas emitted along a run, in order, each with the seed of the owner hierarchy then. -/
def Device.emissions (d : Device σ) : List (DeviceStep σ) → List (σ × Bytes)
  | [] => []
  | .clear seed :: steps => (d.step sys (.clear seed)).emissions steps
  | .call c :: steps =>
    ((d.process.emitted sys c).map fun json =>
        (d.seeds Hierarchy.owner.handle, jsonGet json (text "akPublicArea"))).toList ++
      (d.step sys (.call c)).emissions steps

end Device

section Rotation
variable {σ : Type} {sys : System} {derive : σ → Bytes → Bytes → Key} {d : Device σ}

/-- The AK of a seed. -/
def akOf (derive : σ → Bytes → Bytes → Key) (seed : σ) : Key :=
  derive seed (beBytes 2 0 ++ beBytes 2 0) akTemplate

theorem derivedKey_owner (seeds : Nat → σ) :
    derivedKey derive seeds .owner = some (akOf derive (seeds Hierarchy.owner.handle)) := by
  rw [derivedKey, unmarshal_createPrimaryCommand]
  rfl

theorem newEvents_append {t t' : Tpm} {es : List Event} (h : t'.log = es ++ t.log) : newEvents t t' = es := by
  rw [newEvents, h, List.length_append, Nat.add_sub_cancel_right, List.take_left]

theorem Key.publicArea_not_literal (key : Key) : key.publicArea ∉ literalBytes := by
  intro hmem
  have hlen : key.content.length = 1 := by
    have hthree : ∀ v ∈ literalBytes, v.length = 3 := by decide
    have h := hthree _ hmem
    rw [publicArea, List.length_append, beBytes_length] at h
    omega
  rw [publicArea, hlen] at hmem
  simp only [literalBytes, List.mem_cons, List.not_mem_nil, or_false] at hmem
  rcases hmem with h | h
  · exact absurd (List.cons.inj h).1 (by decide)
  · exact absurd (List.cons.inj h).1 (by decide)

theorem Key.publicArea_injective {key key' : Key} (h : key.publicArea = key'.publicArea) : key = key' := by
  obtain ⟨content, hne, hlt⟩ := key
  obtain ⟨content', hne', hlt'⟩ := key'
  have hcontent : content = content' := (List.append_inj h (by simp)).2
  subst hcontent
  rfl

/-- The provider in flight was opened in a context there is. -/
def Process.Opened (s : Process) : Prop := ∀ old ∈ s.inFlight, ∃ context < s.tpm.contexts, old.tpm = some context

theorem Process.Opened.kept {inFlight : InFlight} {t t' : Tpm} (h : Process.Opened ⟨inFlight, t⟩)
    (hle : t.contexts ≤ t'.contexts) : Process.Opened ⟨inFlight, t'⟩ := by
  intro old hold
  obtain ⟨context, hlt, htpm⟩ := h old hold
  exact ⟨context, hlt.trans_le hle, htpm⟩

theorem BeginOutcome.opened {inFlight : InFlight} {t t' : Tpm} {r : EnrollStep} (hbegin : BeginOutcome inFlight t r t')
    (h : Process.Opened ⟨inFlight, t⟩) :
    Process.Opened ⟨r.inFlight, match r.status, r.json with
      | .ok, some json => t'.record (.began json)
      | _, _ => t'⟩ := by
  rcases hbegin with ⟨hok, data, p, ek, ak, hjson, hinFlight, hbegan⟩ | ⟨hfail, hinFlight, es, hes, hlocal⟩
  · rw [hok, hjson, hinFlight]
    intro old hold
    obtain rfl := Option.some.inj hold
    exact ⟨t.contexts, hbegan.contexts, hbegan.holds.tpm⟩
  · rw [hinFlight]
    split
    · rename_i hok _
      exact absurd hok hfail
    · exact h.kept hlocal.contexts

theorem CompleteOutcome.opened {p : TbsKeyProvider} {t t' : Tpm} {r : EnrollStep} (hcomplete : CompleteOutcome p t r t')
    (h : Process.Opened ⟨some p, t⟩) :
    Process.Opened ⟨r.inFlight, if r.status = .ok then t'.record .completed else t'⟩ := by
  rcases hcomplete with ⟨hinvalid, hinFlight, rfl⟩ | ⟨hinFlight, -⟩
  · rw [hinvalid, hinFlight]
    exact h
  · rw [hinFlight]
    exact fun _ hold => by cases hold

theorem Process.Opened.step {s : Process} (h : s.Opened) (c : Call) : (s.step sys c).Opened := by
  cases c with
  | enrollBegin outEnrollJson env outcomes =>
    exact (rootHeraldEnrollBegin_outcome sys outEnrollJson env h { tpm := s.tpm, outcomes } rfl).opened h
  | enrollComplete challengeJson outActivateJson allocated outcomes =>
    obtain ⟨inFlight, t⟩ := s
    cases inFlight with
    | none =>
      intro old hold
      simp only [Process.step, rootHeraldEnrollComplete_none] at hold
      cases hold
    | some p =>
      exact (rootHeraldEnrollComplete_outcome p t sys challengeJson outActivateJson allocated
        { tpm := t, outcomes } rfl).opened h
  | collectEvidence nonceB64 outEvidenceJson env outcomes =>
    exact h.kept
      (rootHeraldCollectEvidence_untouched sys nonceB64 outEvidenceJson env { tpm := s.tpm, outcomes } (.refl _)).contexts
  | getStatus outStatus pcpAvailable env outcomes =>
    exact h.kept
      (rootHeraldGetStatus_untouched sys outStatus pcpAvailable env { tpm := s.tpm, outcomes } (.refl _)).contexts

/-- A successful EnrollBegin emits the public area of the AK it created. -/
theorem BeginOutcome.emitted {inFlight : InFlight} {t t' : Tpm} {r : EnrollStep} (hbegin : BeginOutcome inFlight t r t')
    {json : Bytes} (hjson : (if r.status = .ok then r.json else none) = some json) :
    ∃ ak, jsonGet json (text "akPublicArea") = base64Encode ak.publicArea ∧
      .created .owner ak ∈ newEvents t (match r.status, r.json with
        | .ok, some json => t'.record (.began json)
        | _, _ => t') := by
  rcases hbegin with ⟨hok, data, p, ek, ak, hjson', -, hbegan⟩ | ⟨hfail, -⟩
  · rw [hok, hjson', if_pos rfl, Option.some_inj] at hjson
    subst hjson
    rw [hok, hjson']
    refine ⟨ak, jsonGet_akPublicArea data ak.publicArea_not_literal, ?_⟩
    have hlog : (t'.record (.began (jsonBuild (buildEnrollFields data ak.publicArea)))).log =
        [.began (jsonBuild (buildEnrollFields data ak.publicArea)), .created .owner ak, .created .endorsement ek] ++
          t.log := congrArg (_ :: ·) hbegan.log
    rw [newEvents_append hlog]
    exact List.mem_cons_of_mem _ List.mem_cons_self
  · rw [if_neg hfail] at hjson
    cases hjson

theorem Process.emitted_derived {s : Process} (h : s.Opened) {seeds : Nat → σ} {c : Call} {json : Bytes}
    (hjson : s.emitted sys c = some json)
    (hderived : ∀ e ∈ newEvents s.tpm (s.step sys c).tpm, isDerived derive seeds e) :
    jsonGet json (text "akPublicArea") = base64Encode (akOf derive (seeds Hierarchy.owner.handle)).publicArea := by
  cases c with
  | enrollBegin outEnrollJson env outcomes =>
    obtain ⟨ak, hemitted, hmem⟩ :=
      (rootHeraldEnrollBegin_outcome sys outEnrollJson env h { tpm := s.tpm, outcomes } rfl).emitted hjson
    have hak := hderived _ hmem
    rw [isDerived, derivedKey_owner, decide_eq_true_eq, Option.some_inj] at hak
    rw [hemitted, hak]
  | enrollComplete _ _ _ _ => cases hjson
  | collectEvidence _ _ _ _ => cases hjson
  | getStatus _ _ _ _ => cases hjson

theorem Device.emissions_derived {steps : List (DeviceStep σ)} (h : d.process.Opened) (hderives : d.Derives sys derive steps) :
    ∀ e ∈ d.emissions sys steps, e.2 = base64Encode (akOf derive e.1).publicArea := by
  induction steps generalizing d with
  | nil => exact fun _ he => by cases he
  | cons step steps ih =>
    obtain ⟨hnew, hderives⟩ := hderives
    cases step with
    | clear seed => exact ih h hderives
    | call c =>
      intro e he
      rcases List.mem_append.mp he with he | he
      · obtain ⟨json, hjson, rfl⟩ := Option.map_eq_some_iff.mp (Option.mem_toList.mp he)
        exact Process.emitted_derived h hjson hnew
      · exact ih (h.step c) hderives e he

/-- The public areas emitted by any two successful EnrollBegin calls differ exactly when the seeds of the
owner hierarchy did. -/
theorem rotation_fresh_iff (sys : System) (derive : σ → Bytes → Bytes → Key)
    (hderive : ∀ inSensitive inPublic, Function.Injective fun seed => derive seed inSensitive inPublic)
    (t : Tpm) (seeds : Nat → σ) (steps : List (DeviceStep σ))
    (hderives : Device.Derives sys derive ⟨Process.start t, seeds⟩ steps) :
    ((Device.emissions sys ⟨Process.start t, seeds⟩ steps).Pairwise fun a b => a.2 ≠ b.2) ↔
      (Device.emissions sys ⟨Process.start t, seeds⟩ steps).Pairwise fun a b => a.1 ≠ b.1 := by
  have hopened : (Process.start t).Opened := fun _ h => by cases h
  have hemitted := Device.emissions_derived hopened hderives
  refine List.Pairwise.iff_of_mem fun {a b} ha hb => not_congr ?_
  rw [hemitted a ha, hemitted b hb, base64Encode_eq, base64Encode_eq]
  constructor
  · intro heq
    exact hderive _ _ (Key.publicArea_injective (Base64.encode_injective heq))
  · intro heq
    rw [heq]

end Rotation

section Sample

/-- A TPM with two seeds in each hierarchy, one after the other. -/
def sampleDerive (seed : Bool) (_ inPublic : Bytes) : Key :=
  sampleKey (if inPublic = akTemplate then (if seed then 4 else 2) else (if seed then 3 else 1))

private theorem sampleKey_of_seed : ∀ seed seed' : Bool,
    (sampleKey (if seed then 4 else 2) = sampleKey (if seed' then 4 else 2) → seed = seed') ∧
      (sampleKey (if seed then 3 else 1) = sampleKey (if seed' then 3 else 1) → seed = seed') := by decide

theorem sampleDerive_injective (inSensitive inPublic : Bytes) :
    Function.Injective fun seed => sampleDerive seed inSensitive inPublic := by
  intro seed seed' heq
  simp only [sampleDerive] at heq
  by_cases htemplate : inPublic = akTemplate
  · rw [if_pos htemplate, if_pos htemplate] at heq
    exact (sampleKey_of_seed seed seed').1 heq
  · rw [if_neg htemplate, if_neg htemplate] at heq
    exact (sampleKey_of_seed seed seed').2 heq

/-- An EnrollBegin that draws that AK. -/
def rotationBegin (ak : UInt8) : DeviceStep Bool :=
  .call (.enrollBegin true sampleEnv [answered, createdAt 0x80000001 1, createdAt 0x80000002 ak])

def sampleDevice : Device Bool where
  process := Process.start { openCredential := fun _ _ _ _ => some [7] }
  seeds := fun _ => false

/-- Behind a TPM2_Clear the second AK is another one. -/
theorem rotation_behind_clear :
    ((sampleDevice.emissions sampleSystem [rotationBegin 2, .clear true, rotationBegin 4]).Pairwise
        fun a b => a.2 ≠ b.2) ∧
      (sampleDevice.emissions sampleSystem [rotationBegin 2, .clear true, rotationBegin 4]).length = 2 :=
  ⟨(rotation_fresh_iff sampleSystem sampleDerive sampleDerive_injective { openCredential := fun _ _ _ _ => some [7] }
    (fun _ => false) [rotationBegin 2, .clear true, rotationBegin 4]
    ⟨by decide +kernel, by decide, by decide +kernel, trivial⟩).mpr (by decide), by decide⟩

/-- Two enrollments in a row emit the same AK. -/
theorem rotation_repeats_key :
    ¬ ∀ (sys : System) (derive : Bool → Bytes → Bytes → Key),
      (∀ inSensitive inPublic, Function.Injective fun seed => derive seed inSensitive inPublic) →
      ∀ (t : Tpm) (seeds : Nat → Bool) (steps : List (DeviceStep Bool)),
        Device.Derives sys derive ⟨Process.start t, seeds⟩ steps →
        (Device.emissions sys ⟨Process.start t, seeds⟩ steps).Pairwise fun a b => a.2 ≠ b.2 := by
  intro h
  have hfresh := h sampleSystem sampleDerive sampleDerive_injective { openCredential := fun _ _ _ _ => some [7] }
    (fun _ => false) [rotationBegin 2, rotationBegin 2] ⟨by decide +kernel, by decide +kernel, trivial⟩
  exact absurd hfresh (by decide)

end Sample
end RootHerald.Windows
