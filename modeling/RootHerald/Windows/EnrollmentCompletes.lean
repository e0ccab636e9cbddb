import RootHerald.Windows.ClientHandles
import RootHerald.Windows.KeyRotation
import RootHerald.Windows.PersistentKey

/-! An enrollment on a TPM that executes its commands: with any history before it, and calls that only
look in between, it ends with the new AK at the persistent handle exactly if the TPM opens the
challenge. -/
namespace RootHerald.Windows
open Lib

section Observers
variable {opens : Key → Key → Bytes → Bytes → Option Bytes} {n : Nat} {t : Tpm}

private theorem Ready.of_tpm {w w' : World} (h : Ready opens n w) (heq : w'.tpm = w.tpm) : Ready opens n w' :=
  ⟨heq ▸ h.numbered, heq ▸ h.openCredential, heq ▸ h.contexts⟩

theorem isPersistentPresent_ready (tpm : TpmCommands) : Triple (Ready opens n)
    (isPersistentPresent tpm kTbsAkPersistentHandle) fun _ => Ready opens n :=
  fun w h => h.of_tpm (isPersistentPresent_presence tpm w.tpm w rfl).1

private theorem andAlso_ready (opened : Bool) (tpm : TpmCommands) : Triple (Ready opens n)
    (andAlso opened (isPersistentPresent tpm kTbsAkPersistentHandle)) fun _ => Ready opens n :=
  .ite (fun _ => isPersistentPresent_ready tpm) fun _ => .pure fun _ h => h

theorem anyAkPresent_ready : Triple (Ready opens n) anyAkPresent fun _ => Ready opens n := by
  refine .bind openContext_ready fun (opened, p) => .witness fun n' => .assume (fun _ h => h.1) fun ⟨hle, hp⟩ => ?_
  refine Triple.weaken (H := Ready opens n') (K := fun _ => Ready opens n') ?_ (fun _ h => h.2) fun _ _ h => h.mono hle
  exact .bind (andAlso_ready opened p.tpm) fun _ => .bind (close_ready hp) fun _ => .pure fun _ h => h

theorem rootHeraldGetStatus_ready (sys : System) (outStatus pcpAvailable : Bool) (env : CallEnv) :
    Triple (Ready opens n) (rootHeraldGetStatus sys outStatus pcpAvailable env) fun _ => Ready opens n :=
  .ite (fun _ => .pure fun _ h => h) fun _ => .bind anyAkPresent_ready fun _ => .pure fun _ h => h

theorem selectEnrolledProvider_ready : Triple (Ready opens n) selectEnrolledProvider fun provider w =>
    ∃ n', (n ≤ n' ∧ ∀ p ∈ provider, Within n' p.tpm) ∧ Ready opens n' w := by
  refine .bind openContext_ready fun (opened, p) => .witness fun n' => .assume (fun _ h => h.1) fun ⟨hle, hp⟩ => ?_
  refine Triple.pre (H := Ready opens n') ?_ fun _ h => h.2
  refine .bind (andAlso_ready opened p.tpm) fun loaded => .ite (fun _ => .pure fun w h => ?_) fun _ =>
    .bind (close_ready hp) fun _ => .pure fun w h => ⟨n', ⟨hle, fun _ hmem => (by cases hmem)⟩, h⟩
  exact ⟨n', ⟨hle, fun _ hmem => Option.some.inj hmem ▸ hp⟩, h⟩

theorem collectEvidenceFields_ready (sys : System) (env : CollectEnv) (nonceB64 : Bytes) :
    Triple (Ready opens n) (collectEvidenceFields sys env nonceB64) fun _ => Ready opens n := by
  refine .bind selectEnrolledProvider_ready fun provider => .witness fun n' => .assume (fun _ h => h.1) fun ⟨hle, hp⟩ => ?_
  refine Triple.weaken (H := Ready opens n') (K := fun _ => Ready opens n') ?_ (fun _ h => h.2) fun _ _ h => h.mono hle
  cases provider with
  | none => exact .pure fun _ h => h
  | some provider =>
    refine .bind (Q := fun r w => ∃ n'', (n' ≤ n'' ∧ Within n'' r.2) ∧ Ready opens n'' w) (fun w h => openContext_ready w h)
      fun (opened, tpmCmd) => .witness fun n'' => .assume (fun _ h => h.1) fun ⟨hle', hcmd⟩ => ?_
    refine Triple.weaken (H := Ready opens n'') (K := fun _ => Ready opens n'') ?_ (fun _ h => h.2) fun _ _ h => h.mono hle'
    refine .bind tpmClose_ready fun _ => .bind (close_ready fun context hmem => ?_) fun _ => .pure fun _ h => h
    exact (hp provider rfl context hmem).trans_le hle'

theorem rootHeraldCollectEvidence_ready (sys : System) (nonceB64 : Option Bytes) (outEvidenceJson : Bool)
    (env : CollectEnv) : Triple (Ready opens n) (rootHeraldCollectEvidence sys nonceB64 outEvidenceJson env)
      fun _ => Ready opens n := by
  cases nonceB64 with
  | none => exact .pure fun _ h => h
  | some nonceB64 =>
    refine .ite (fun _ => .pure fun _ h => h) fun _ => .bind (collectEvidenceFields_ready sys env nonceB64) fun r => ?_
    cases r with
    | error fault => exact .pure fun _ h => h
    | ok collected =>
      exact .ite (fun _ => .pure fun _ h => h) fun _ => .ite (fun _ => .pure fun _ h => h) fun _ => .pure fun _ h => h

end Observers

section Runs
variable (sys : System) {opens : Key → Key → Bytes → Bytes → Option Bytes} {keys : Option (Key × Key)} {s : Process}

/-- CollectEvidence and GetStatus. -/
def Call.observes : Call → Bool
  | .enrollBegin .. | .enrollComplete .. => false
  | .collectEvidence .. | .getStatus .. => true

theorem Process.step_observes {c : Call} (hc : c.observes = true) :
    (s.step sys c).inFlight = s.inFlight ∧ Untouched s.tpm (s.step sys c).tpm := by
  cases c with
  | enrollBegin _ _ _ => cases hc
  | enrollComplete _ _ _ _ => cases hc
  | collectEvidence nonceB64 outEvidenceJson env outcomes =>
    exact ⟨rfl, rootHeraldCollectEvidence_untouched sys nonceB64 outEvidenceJson env { tpm := s.tpm, outcomes } (.refl _)⟩
  | getStatus outStatus pcpAvailable env outcomes =>
    exact ⟨rfl, rootHeraldGetStatus_untouched sys outStatus pcpAvailable env { tpm := s.tpm, outcomes } (.refl _)⟩

/-- What every history leaves: no object in a context to come, and the provider in flight in an open one. -/
structure Process.Usable (opens : Key → Key → Bytes → Bytes → Option Bytes) (s : Process) : Prop where
  numbered : s.tpm.Numbered
  openCredential : s.tpm.openCredential = opens
  opened : s.Opened

theorem Process.Usable.ready (h : s.Usable opens) (outcomes : List Outcome) :
    Ready opens s.tpm.contexts { tpm := s.tpm, outcomes } := ⟨h.numbered, h.openCredential, le_refl _⟩

theorem Process.Usable.within (h : s.Usable opens) : ∀ old ∈ s.inFlight, Within s.tpm.contexts old.tpm := by
  intro old hold context hmem
  obtain ⟨context', hlt, htpm⟩ := h.opened old hold
  exact Option.some.inj (htpm.symm.trans hmem) ▸ hlt

/-- The enrollment calls do what the driver does, but for an OK in the log. -/
theorem Process.step_begin (s : Process) (outEnrollJson : Bool) (env : CallEnv) (outcomes : List Outcome) :
    let r := (rootHeraldEnrollBegin sys outEnrollJson env s.inFlight).run { tpm := s.tpm, outcomes }
    ∃ log, s.step sys (.enrollBegin outEnrollJson env outcomes) = ⟨r.1.inFlight, { r.2.tpm with log }⟩ := by
  intro r
  change ∃ log, Process.mk r.1.inFlight _ = _
  split
  · exact ⟨_, rfl⟩
  · exact ⟨_, rfl⟩

theorem Process.step_complete (s : Process) (challengeJson : Option Bytes) (outActivateJson allocated : Bool)
    (outcomes : List Outcome) :
    let r := (rootHeraldEnrollComplete sys challengeJson outActivateJson allocated s.inFlight).run
      { tpm := s.tpm, outcomes }
    ∃ log, s.step sys (.enrollComplete challengeJson outActivateJson allocated outcomes) =
      ⟨r.1.inFlight, { r.2.tpm with log }⟩ := by
  intro r
  change ∃ log, Process.mk r.1.inFlight (if r.1.status = .ok then r.2.tpm.record .completed else r.2.tpm) = _
  split_ifs
  · exact ⟨_, rfl⟩
  · exact ⟨_, rfl⟩

/-- Every call keeps the TPM ready for the next. -/
theorem Process.Usable.step_ready (h : s.Usable opens) (c : Call) :
    (s.step sys c).tpm.Numbered ∧ (s.step sys c).tpm.openCredential = opens := by
  cases c with
  | enrollBegin outEnrollJson env outcomes =>
    have hready := rootHeraldEnrollBegin_ready sys h.within outEnrollJson env _ (h.ready outcomes)
    obtain ⟨log, hstep⟩ := s.step_begin sys outEnrollJson env outcomes
    rw [hstep]
    exact ⟨hready.numbered, hready.openCredential⟩
  | enrollComplete challengeJson outActivateJson allocated outcomes =>
    have hready := rootHeraldEnrollComplete_ready sys h.within challengeJson outActivateJson allocated _ (h.ready outcomes)
    obtain ⟨log, hstep⟩ := s.step_complete sys challengeJson outActivateJson allocated outcomes
    rw [hstep]
    exact ⟨hready.numbered, hready.openCredential⟩
  | collectEvidence nonceB64 outEvidenceJson env outcomes =>
    have hready := rootHeraldCollectEvidence_ready sys nonceB64 outEvidenceJson env _ (h.ready outcomes)
    exact ⟨hready.numbered, hready.openCredential⟩
  | getStatus outStatus pcpAvailable env outcomes =>
    have hready := rootHeraldGetStatus_ready sys outStatus pcpAvailable env _ (h.ready outcomes)
    exact ⟨hready.numbered, hready.openCredential⟩

theorem Process.Usable.step (h : s.Usable opens) (c : Call) : (s.step sys c).Usable opens :=
  ⟨(h.step_ready sys c).1, (h.step_ready sys c).2, h.opened.step c⟩

theorem Process.Usable.run (calls : List Call) (h : s.Usable opens) : (s.run sys calls).Usable opens := by
  induction calls generalizing s with
  | nil => exact h
  | cons c calls ih => exact ih (h.step sys c)

theorem InFlightIs.of_untouched {t t' : Tpm} {inFlight : InFlight} (h : InFlightIs t inFlight keys)
    (huntouched : Untouched t t') : InFlightIs t' inFlight keys := by
  cases h with
  | idle => exact .idle
  | begun hcontext hholds =>
    exact .begun (hcontext.trans_le huntouched.contexts) { hholds with
      ekAt := (huntouched.objects _ hcontext _).trans hholds.ekAt
      akAt := (huntouched.objects _ hcontext _).trans hholds.akAt }

theorem Shows.of_observes {c : Call} (h : Shows opens keys s) (husable : s.Usable opens) (hc : c.observes = true) :
    Shows opens keys (s.step sys c) := by
  obtain ⟨hinFlight, huntouched⟩ := s.step_observes sys hc
  obtain ⟨hnumbered, hopens⟩ := husable.step_ready sys c
  exact ⟨hnumbered, hopens, hinFlight ▸ h.inFlight.of_untouched huntouched⟩

/-- Calls that only look keep the enrollment in flight, and the slot. -/
theorem Shows.of_run {calls : List Call} (h : Shows opens keys s) (husable : s.Usable opens)
    (hcalls : ∀ c ∈ calls, c.observes = true) : Shows opens keys (s.run sys calls) := by
  induction calls generalizing s with
  | nil => exact h
  | cons c calls ih =>
    apply ih (h.of_observes sys husable (hcalls c List.mem_cons_self)) (husable.step sys c)
    exact fun c' hmem => hcalls c' (List.mem_cons_of_mem _ hmem)

theorem Process.run_persistent {calls : List Call} (hcalls : ∀ c ∈ calls, c.observes = true) :
    (s.run sys calls).tpm.persistent = s.tpm.persistent := by
  induction calls generalizing s with
  | nil => rfl
  | cons c calls ih =>
    have hslot := ih (s := s.step sys c) fun c' hmem => hcalls c' (List.mem_cons_of_mem _ hmem)
    exact hslot.trans (s.step_observes sys (hcalls c List.mem_cons_self)).2.persistent

end Runs

section Looks
variable {context : Context} {t : Tpm} {outcomes : List Outcome}

/-- A context opens, and the public area at the persistent handle is read. -/
def Looks (outcomes : List Outcome) : Prop :=
  ∃ arriving drawn read more, outcomes = .executed arriving drawn :: read :: more ∧ Whole 0 read

theorem isPersistentPresent_answered {read : Outcome} (hread : Whole 0 read) :
    Triple (At t (read :: outcomes)) (isPersistentPresent (some context) kTbsAkPersistentHandle) fun present w =>
      present = t.persistent.isSome ∧ At t outcomes w := by
  obtain ⟨arriving, drawn, rfl, hwhole⟩ := hread
  have hkeyAt : t.keyAt context kTbsAkPersistentHandle = t.persistent := if_pos rfl
  cases hslot : t.persistent with
  | none =>
    have hexec : t.execute drawn context (.readPublic kTbsAkPersistentHandle) = none := by
      simp only [Tpm.execute, hkeyAt, hslot, Option.map_none]
    refine .bind (sendCommand_denied hexec) fun resp => .pure fun w h => ⟨?_, h.2⟩
    exact Bool.eq_false_iff.mpr fun hsucceeded => (succeeded_iff resp).mp hsucceeded h.1
  | some key =>
    have hexec : t.execute drawn context (.readPublic kTbsAkPersistentHandle) = some (drawn.rest, t) := by
      simp only [Tpm.execute, hkeyAt, hslot, Option.map_some]
    refine .bind (sendCommand_answered hexec (by omega)) fun resp => .pure fun w h => ⟨?_, h.2⟩
    rw [h.1]
    exact succeeded_whole _ _ _

private theorem openContext_answered {arriving : Nat} {drawn : Drawn} :
    Triple (At t (.executed arriving drawn :: outcomes)) (TbsKeyProvider.openContext {}) fun r w =>
      r = (true, { tpm := some t.contexts }) ∧ At { t with contexts := t.contexts + 1 } outcomes w := by
  rintro ⟨_, _, sent⟩ ⟨rfl, rfl⟩
  exact ⟨rfl, rfl, rfl⟩

theorem rootHeraldGetStatus_answered (sys : System) (pcpAvailable : Bool) (env : CallEnv) (h : Looks outcomes) :
    Triple (At t outcomes) (rootHeraldGetStatus sys true pcpAvailable env) fun r _ =>
      r.1 = .ok ∧ r.2.isEnrolled = t.persistent.isSome := by
  obtain ⟨arriving, drawn, read, more, rfl, hread⟩ := h
  refine .ite (fun h => by cases h rfl) fun _ => .bind (Q := fun present _ => present = t.persistent.isSome) ?_
    fun present => .pure fun _ h => ⟨rfl, h⟩
  refine .bind openContext_answered fun (opened, p) => .assume (fun _ h => h.1) fun heq => ?_
  obtain ⟨rfl, rfl⟩ := Prod.mk.inj heq
  refine .bind ((isPersistentPresent_answered hread).pre fun _ h => h.2) fun present => .assume (fun _ h => h.1) fun hpresent => ?_
  exact .bind (.any _) fun _ => .pure fun _ _ => hpresent

end Looks

section Completes
variable {sys : System} {t : Tpm}

/-- An elevated EnrollBegin on a device with an EK, whose commands are executed. -/
structure Begins (sys : System) (env : CallEnv) (data : EkEnrollData) (draws : BeginDraws) (outcomes : List Outcome) :
    Prop where
  elevated : env.elevated = true
  allocated : env.allocated = true
  data : gatherEkEnrollData sys.sha256 env.sources = some data
  executed : draws.Executed outcomes

/-- What the TPM finds in a challenge with the keys of an EnrollBegin. -/
def openedBy (sys : System) (opens : Key → Key → Bytes → Bytes → Option Bytes) (draws : BeginDraws) (challenge : Bytes) :
    Option Bytes :=
  opens draws.ak draws.ek (sys.base64Decode (jsonGet challenge (text "credentialBlob")))
    (sys.base64Decode (jsonGet challenge (text "encryptedSecret")))

/-- A challenge with its three members, for which the commands of EnrollComplete are executed. -/
structure Challenged (secret : Option Bytes) (challenge : Bytes) (outcomes : List Outcome) : Prop where
  deviceId : jsonGet challenge (text "deviceId") ≠ []
  credentialBlob : jsonGet challenge (text "credentialBlob") ≠ []
  encryptedSecret : jsonGet challenge (text "encryptedSecret") ≠ []
  executed : ∃ n, 0 < n ∧ n < 2 ^ 16 ∧ CompleteExecuted n outcomes ∧ ∀ s ∈ secret, s.length = n

/-- The slot behind an EnrollComplete, by its status. -/
theorem Completion.persistent {p : TbsKeyProvider} {context : Context} {ek ak : Key} {t' : Tpm} {status : RootHeraldResult}
    (h : Completion p t status t') (hholds : Holds p context ek ak t) :
    (status = .attestationFailed → t'.persistent = t.persistent) ∧
      (status = .ok ∨ status = .internal → t'.persistent = some ak) := by
  cases h with
  | refused hact hlocal =>
    refine ⟨fun _ => hlocal.persistent.trans hact.slot, fun hstatus => ?_⟩
    rcases hstatus with hstatus | hstatus
    · cases hstatus
    · cases hstatus
  | activated hsecret hact hevict hlocal hstatus =>
    have hkey {t₁ : Tpm} {secret : Bytes} (hact : Activation (contextOf p.tpm) p.akHandle p.ekHandle t secret t₁) :
        t₁.keyAt (contextOf p.tpm) p.akHandle = some ak := by
      cases hact with
      | refused => exact hholds.keyAt_ak
      | released _ _ _ => exact hholds.keyAt_ak
    have hslot := hkey hact
    constructor
    · rintro rfl
      split_ifs at hstatus
      simp at hstatus
    · intro hended
      split_ifs at hstatus with hevicted
      · subst hevicted
        rw [hlocal.persistent]
        cases hevict with
        | cleared hhandle => exact absurd (hhandle rfl ▸ hholds.akTransient) (by decide)
        | stored hstored =>
          obtain rfl := Option.some.inj (hslot.symm.trans hstored)
          rfl
        | replaced hstored =>
          obtain rfl := Option.some.inj (hslot.symm.trans hstored)
          rfl
      · subst hstatus
        simp at hended

/-- An EnrollComplete of the keys in flight, by what the TPM finds in the challenge. -/
theorem Shows.completes {opens : Key → Key → Bytes → Bytes → Option Bytes} {draws : BeginDraws} {s : Process}
    (h : Shows opens (some (draws.ek, draws.ak)) s) {challenge : Bytes} {outcomes : List Outcome} (allocated : Bool)
    (hchallenge : Challenged (openedBy sys opens draws challenge) challenge outcomes) :
    let r := (rootHeraldEnrollComplete sys (some challenge) true allocated s.inFlight).run { tpm := s.tpm, outcomes }
    r.1 = completed (jsonGet challenge (text "deviceId")) allocated (openedBy sys opens draws challenge) ∧
      r.2.tpm.persistent = if (openedBy sys opens draws challenge).isSome then some draws.ak else s.tpm.persistent := by
  intro r
  obtain ⟨n, hpos, hlt, hexecuted, hlength⟩ := hchallenge.executed
  obtain ⟨inFlight, t⟩ := s
  obtain ⟨-, rfl, hinFlight⟩ := h
  cases hinFlight with
  | begun hcontext hholds =>
    have hmembers : ¬ (jsonGet challenge (text "deviceId") = [] ∨ jsonGet challenge (text "credentialBlob") = [] ∨
        jsonGet challenge (text "encryptedSecret") = []) :=
      not_or.mpr ⟨hchallenge.deviceId, not_or.mpr ⟨hchallenge.credentialBlob, hchallenge.encryptedSecret⟩⟩
    have hrun : Triple (At t outcomes) (rootHeraldEnrollComplete sys (some challenge) true allocated (some _)) fun r _ => _ :=
      .ite (fun hnil => absurd hnil hmembers) fun _ =>
        completeEnrollment_answered sys hholds allocated hexecuted ⟨hpos, hlt⟩ hlength
    have hr : r.1 = completed (jsonGet challenge (text "deviceId")) allocated (openedBy sys t.openCredential draws challenge) :=
      hrun { tpm := t, outcomes } ⟨rfl, rfl⟩
    refine ⟨hr, ?_⟩
    rcases rootHeraldEnrollComplete_outcome _ t sys (some challenge) true allocated { tpm := t, outcomes } rfl with
      ⟨hinvalid, -⟩ | ⟨-, hcompletion⟩
    · change r.1.status = _ at hinvalid
      rw [hr] at hinvalid
      cases hopened : openedBy sys t.openCredential draws challenge with
      | none =>
        rw [hopened] at hinvalid
        cases hinvalid
      | some secret =>
        rw [hopened, completed] at hinvalid
        split_ifs at hinvalid
    · change Completion _ t r.1.status r.2.tpm at hcompletion
      obtain ⟨hkept, hstored⟩ := hcompletion.persistent hholds
      rw [hr] at hkept hstored
      cases hopened : openedBy sys t.openCredential draws challenge with
      | none =>
        rw [hopened] at hkept
        exact hkept rfl
      | some secret =>
        rw [hopened, completed] at hstored
        refine hstored ?_
        split_ifs
        · exact .inl rfl
        · exact .inr rfl

theorem Process.Inv.inFlightIs {initial : Option Key} {s : Process} (h : s.Inv initial) :
    ∃ keys, InFlightIs s.tpm s.inFlight keys := by
  obtain ⟨inFlight, t⟩ := s
  cases inFlight with
  | none => exact ⟨none, .idle⟩
  | some p =>
    obtain ⟨context, ek, ak, hlt, hholds, -⟩ := h.pending p rfl
    exact ⟨some (ek, ak), .begun hlt hholds⟩

private theorem InFlightIs.of_log {keys : Option (Key × Key)} {inFlight : InFlight} (h : InFlightIs t inFlight keys)
    (log : List Event) : InFlightIs { t with log } inFlight keys := by
  cases h with
  | idle => exact .idle
  | begun hcontext hholds => exact .begun hcontext { hholds with }

theorem BeginOutcome.persistent {inFlight : InFlight} {r : EnrollStep} {t' : Tpm} (h : BeginOutcome inFlight t r t') :
    t'.persistent = t.persistent := by
  rcases h with ⟨-, _, p, ek, ak, -, -, hbegan⟩ | ⟨-, -, es, -, hlocal⟩
  · exact hbegan.persistent
  · exact hlocal.persistent

/-- An EnrollBegin whose commands are executed leaves its keys in flight, and the slot as it was. -/
theorem Process.Usable.begins {opens : Key → Key → Bytes → Bytes → Option Bytes} {s : Process} (h : s.Usable opens)
    {keys : Option (Key × Key)} (hinFlight : InFlightIs s.tpm s.inFlight keys) {env : CallEnv} {data : EkEnrollData}
    {draws : BeginDraws} {outcomes : List Outcome} (hbegin : Begins sys env data draws outcomes) :
    s.emitted sys (.enrollBegin true env outcomes) = some (jsonBuild (buildEnrollFields data draws.ak.publicArea)) ∧
      Shows opens (some (draws.ek, draws.ak)) (s.step sys (.enrollBegin true env outcomes)) ∧
      (s.step sys (.enrollBegin true env outcomes)).tpm.persistent = s.tpm.persistent := by
  let r := (rootHeraldEnrollBegin sys true env s.inFlight).run { tpm := s.tpm, outcomes }
  obtain ⟨hanswer, hshows⟩ : (r.1.status, r.1.json) = begun sys env draws.ak ∧ Shows opens _ ⟨r.1.inFlight, r.2.tpm⟩ :=
    enrollBegin_shows ⟨h.numbered, h.openCredential, hinFlight⟩ hbegin.elevated hbegin.executed
  have houtcome := rootHeraldEnrollBegin_outcome sys true env h.opened { tpm := s.tpm, outcomes } rfl
  obtain ⟨log, hstep⟩ := s.step_begin sys true env outcomes
  rw [begun, hbegin.data] at hanswer
  rw [hbegin.data, if_pos ⟨rfl, hbegin.allocated⟩] at hshows
  dsimp only at hanswer
  rw [if_pos hbegin.allocated] at hanswer
  obtain ⟨hstatus, hjson⟩ := Prod.mk.inj hanswer
  refine ⟨?_, ?_, ?_⟩
  · exact (if_pos hstatus).trans hjson
  · rw [hstep]
    exact ⟨hshows.numbered, hshows.openCredential, hshows.inFlight.of_log log⟩
  · rw [hstep]
    exact houtcome.persistent

end Completes

section Sample

def sealedTpm : Tpm := { openCredential := sampleOpens }

def sampleLook : Call := .getStatus true true sampleEnv (List.replicate 2 answered)

def sampleDraws : BeginDraws := ⟨0x80000001, sampleKey 1, 0x80000002, sampleKey 2⟩

def beginOutcomes : List Outcome := [answered, createdAt 0x80000001 1, createdAt 0x80000002 2]

theorem begins_sample {data : EkEnrollData} (h : gatherEkEnrollData sampleSystem.sha256 sampleEnv.sources = some data) :
    Begins sampleSystem sampleEnv data sampleDraws beginOutcomes := by
  refine ⟨rfl, rfl, h, ⟨by decide, by decide, by decide, ?_⟩⟩
  exact ⟨_, _, _, _, _, rfl, ⟨4096, [], rfl, by decide⟩, 4096, [], rfl, by decide⟩

theorem openedBy_sample : openedBy sampleSystem sealedTpm.openCredential sampleDraws sampleChallenge = some [7] := by
  change openedBy sampleSystem sampleOpens _ _ = _
  unfold openedBy sampleOpens
  exact if_pos rfl

theorem challenged_sample : Challenged (openedBy sampleSystem sealedTpm.openCredential sampleDraws sampleChallenge)
    sampleChallenge (List.replicate 8 answered) := by
  have hwhole (size : Nat) (h : 10 + size ≤ 4096) : Whole size answered := ⟨4096, _, rfl, h⟩
  rw [openedBy_sample]
  refine ⟨sampleChallenge_sealed.deviceId, sampleChallenge_sealed.credentialBlob, sampleChallenge_sealed.encryptedSecret,
    1, by decide, by decide, ?_, fun s hs => Option.some.inj hs ▸ rfl⟩
  exact ⟨_, _, _, _, _, _, _, _, rfl, ⟨4096, _, rfl, by decide, by decide⟩, hwhole _ (by decide), hwhole _ (by decide),
    hwhole _ (by decide), hwhole _ (by decide), hwhole _ (by decide), hwhole _ (by decide)⟩

/-- The challenge is awaited. -/
def sampleBegun : Process :=
  (((Process.start sealedTpm).run sampleSystem [sampleLook]).step sampleSystem
    (.enrollBegin true sampleEnv beginOutcomes)).run sampleSystem [sampleLook]

end Sample
end RootHerald.Windows
