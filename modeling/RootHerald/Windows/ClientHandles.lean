import RootHerald.Lib.SharedState
import RootHerald.Windows.ClientFacade
import RootHerald.Windows.ExecutedCommands

/-! Several client handles in one elevated process, on a TPM that executes every command: when the calls
of a handle are answered as without the others. -/
namespace RootHerald.Windows
open Lib SharedState

section Calls
variable (sys : System)

/-- An enrollment call on a handle, with its client as it is then, its environment, and what becomes of
the commands it sends. -/
inductive HandleCall where
  | enrollBegin (client : RootHeraldClient) (out : OutPtr) (env : CallEnv) (outcomes : List Outcome)
  | enrollComplete (client : RootHeraldClient) (challengeJson : Option Bytes) (out : OutPtr) (allocated : Bool)
      (outcomes : List Outcome)

def HandleCall.run (s : Process) : HandleCall → Returned × Process
  | .enrollBegin client out env outcomes =>
    let (r, w) := (clientEnrollBegin sys (some client) out env s.inFlight).run { tpm := s.tpm, outcomes }
    (r.1, ⟨r.2, w.tpm⟩)
  | .enrollComplete client challengeJson out allocated outcomes =>
    let (r, w) := (clientEnrollComplete sys (some client) challengeJson out allocated s.inFlight).run
      { tpm := s.tpm, outcomes }
    (r.1, ⟨r.2, w.tpm⟩)

def HandleCall.returned (s : Process) (c : HandleCall) : Returned := (c.run sys s).1

def HandleCall.step (s : Process) (c : HandleCall) : Process := (c.run sys s).2

/-- EK and AK of the creations in an EnrollBegin. -/
def drawnKeys : List Outcome → Option (Key × Key)
  | _ :: .executed _ ek :: .executed _ ak :: _ => some (ek.key, ak.key)
  | _ => none

/-- The call gets to the driver. -/
def HandleCall.reaches : HandleCall → Bool
  | .enrollBegin client out _ _ => out.isSome && !client.mockTpm
  | .enrollComplete client challengeJson out _ _ => out.isSome && !isBlank challengeJson && !client.mockTpm

/-- EK and AK of an EnrollBegin that emits its AK. -/
def HandleCall.begins : HandleCall → Option (Key × Key)
  | .enrollBegin client out env outcomes =>
    if (HandleCall.enrollBegin client out env outcomes).reaches ∧
        (gatherEkEnrollData sys.sha256 env.sources).isSome ∧ env.allocated then drawnKeys outcomes
    else none
  | .enrollComplete .. => none

/-- An EnrollComplete that gets to the driver. -/
def HandleCall.completes : HandleCall → Bool
  | .enrollBegin .. => false
  | .enrollComplete client challengeJson out allocated outcomes =>
    (HandleCall.enrollComplete client challengeJson out allocated outcomes).reaches

/-- EK and AK of the enrollment in flight behind a call. -/
def HandleCall.slot (keys : Option (Key × Key)) (c : HandleCall) : Option (Key × Key) :=
  if c.completes then none else (c.begins sys).or keys

variable {ι : Type}

/-- EK and AK of the enrollment in flight behind the calls, if any is. -/
def keysAfter (calls : List (ι × HandleCall)) : Option (Key × Key) := after (HandleCall.slot sys) none calls

/-- EK and AK of the last EnrollBegin of the calls. -/
def lastBegun (calls : List (ι × HandleCall)) : Option (Key × Key) := (calls.filterMap fun e => e.2.begins sys).getLast?

/-- A challenge with this secret in it, which the TPM opens with those keys and no others. -/
structure Sealed (opens : Key → Key → Bytes → Bytes → Option Bytes) (keys : Key × Key) (challenge secret : Bytes) :
    Prop where
  deviceId : jsonGet challenge (text "deviceId") ≠ []
  credentialBlob : jsonGet challenge (text "credentialBlob") ≠ []
  encryptedSecret : jsonGet challenge (text "encryptedSecret") ≠ []
  opens_iff : ∀ ek ak s, opens ak ek (sys.base64Decode (jsonGet challenge (text "credentialBlob")))
    (sys.base64Decode (jsonGet challenge (text "encryptedSecret"))) = some s ↔ (ek, ak) = keys ∧ s = secret
  secret_ne : secret ≠ []
  secret_lt : secret.length < 2 ^ 16

/-- The process is elevated and the TPM executes the commands; a challenge is the one sealed for the keys. -/
def HandleCall.Orderly (opens : Key → Key → Bytes → Bytes → Option Bytes) (begun : Option (Key × Key)) :
    HandleCall → Prop
  | .enrollBegin _ _ env outcomes => env.elevated = true ∧ ∃ draws : BeginDraws, draws.Executed outcomes
  | .enrollComplete client challengeJson out allocated outcomes =>
    (HandleCall.enrollComplete client challengeJson out allocated outcomes).completes = true →
      ∃ keys ∈ begun, ∃ challenge ∈ challengeJson, ∃ secret, Sealed sys opens keys challenge secret ∧
        CompleteExecuted secret.length outcomes

/-- So is every call, with the keys of the last EnrollBegin of its handle. -/
def Orderly [DecidableEq ι] (opens : Key → Key → Bytes → Bytes → Option Bytes) (calls : List (ι × HandleCall)) : Prop :=
  ∀ front c back, calls = front ++ c :: back → c.2.Orderly sys opens (lastBegun sys (own c.1 front))

end Calls

section Keys
variable {sys : System} {ι : Type}

theorem keysAfter_concat (calls : List (ι × HandleCall)) (c : ι × HandleCall) :
    keysAfter sys (calls ++ [c]) = c.2.slot sys (keysAfter sys calls) := by
  simp only [keysAfter, after, List.foldl_append, List.foldl_cons, List.foldl_nil]

theorem lastBegun_concat (calls : List (ι × HandleCall)) (c : ι × HandleCall) :
    lastBegun sys (calls ++ [c]) = (c.2.begins sys).or (lastBegun sys calls) := by
  rw [lastBegun, List.filterMap_append, List.getLast?_append, lastBegun]
  cases hbegins : c.2.begins sys <;> simp [hbegins]

/-- The enrollment in flight is that of the last EnrollBegin, or there is none. -/
theorem keysAfter_begun (calls : List (ι × HandleCall)) :
    keysAfter sys calls = none ∨ keysAfter sys calls = lastBegun sys calls := by
  induction calls using List.reverseRecOn with
  | nil => exact .inl rfl
  | append_singleton calls c ih =>
    rw [keysAfter_concat, lastBegun_concat, HandleCall.slot]
    cases hbegins : c.2.begins sys with
    | some keys =>
      split_ifs
      · exact .inl rfl
      · exact .inr rfl
    | none =>
      split_ifs
      · exact .inl rfl
      · exact ih

end Keys
section Simulation
variable {sys : System} {opens : Key → Key → Bytes → Bytes → Option Bytes} {keys : Option (Key × Key)} {s : Process}

/-- The provider in flight holds the keys, in a context of the process. -/
inductive InFlightIs (t : Tpm) : InFlight → Option (Key × Key) → Prop
  | idle : InFlightIs t none none
  | begun {p context ek ak} (hcontext : context < t.contexts) (hholds : Holds p context ek ak t) :
      InFlightIs t (some p) (some (ek, ak))

/-- The process has an enrollment with the keys in flight, on a TPM that opens these credentials. -/
structure Shows (opens : Key → Key → Bytes → Bytes → Option Bytes) (keys : Option (Key × Key)) (s : Process) : Prop where
  numbered : s.tpm.Numbered
  openCredential : s.tpm.openCredential = opens
  inFlight : InFlightIs s.tpm s.inFlight keys

theorem Shows.ready (h : Shows opens keys s) (outcomes : List Outcome) :
    Ready opens s.tpm.contexts { tpm := s.tpm, outcomes } :=
  ⟨h.numbered, h.openCredential, le_refl _⟩

theorem InFlightIs.opened {t : Tpm} {inFlight : InFlight} (h : InFlightIs t inFlight keys) :
    ∀ old ∈ inFlight, ∃ context < t.contexts, old.tpm = some context := by
  intro old hold
  cases h with
  | idle => cases hold
  | begun hcontext hholds => exact Option.some.inj hold ▸ ⟨_, hcontext, hholds.tpm⟩

theorem InFlightIs.within {t : Tpm} {inFlight : InFlight} (h : InFlightIs t inFlight keys) :
    ∀ old ∈ inFlight, Within t.contexts old.tpm := by
  intro old hold context hmem
  obtain ⟨context', hlt, htpm⟩ := h.opened old hold
  exact Option.some.inj (htpm.symm.trans hmem) ▸ hlt

theorem InFlightIs.of_local {t t' : Tpm} {inFlight : InFlight} {es : List Event} (h : InFlightIs t inFlight keys)
    (hlocal : Local t.contexts es t t') : InFlightIs t' inFlight keys := by
  cases h with
  | idle => exact .idle
  | begun hcontext hholds =>
    exact .begun (hcontext.trans_le hlocal.contexts) (hholds.of_local hlocal (ne_of_lt hcontext))

theorem drawnKeys_executed {draws : BeginDraws} {outcomes : List Outcome} (h : draws.Executed outcomes) :
    drawnKeys outcomes = some (draws.ek, draws.ak) := by
  obtain ⟨_, _, _, _, _, rfl, ⟨_, _, rfl, -⟩, _, _, rfl, -⟩ := h.outcomes_eq
  rfl

/-- Status and text of an EnrollBegin that reaches the driver. -/
def begun (sys : System) (env : CallEnv) (ak : Key) : RootHeraldResult × Option Bytes :=
  match gatherEkEnrollData sys.sha256 env.sources with
  | none => (.enrollmentFailed, none)
  | some ek =>
    if env.allocated then (.ok, some (jsonBuild (buildEnrollFields ek ak.publicArea))) else (.internal, none)

/-- A begin that fails leaves what was in flight. -/
theorem BeginOutcome.inFlight_kept {t t' : Tpm} {inFlight : InFlight} {r : EnrollStep} (h : BeginOutcome inFlight t r t')
    (hstatus : r.status ≠ .ok) (hbefore : InFlightIs t inFlight keys) : InFlightIs t' r.inFlight keys := by
  rcases h with ⟨hok, -⟩ | ⟨-, hinFlight, es, -, hlocal⟩
  · exact absurd hok hstatus
  · exact hinFlight ▸ hbefore.of_local hlocal

/-- One that succeeds has the keys it created in flight. -/
theorem BeginOutcome.inFlight_begun {t t' : Tpm} {inFlight : InFlight} {r : EnrollStep} {ek ak : Key}
    (h : BeginOutcome inFlight t r t') (hstatus : r.status = .ok)
    (hlog : t'.log = .created .owner ak :: .created .endorsement ek :: t.log) : InFlightIs t' r.inFlight (some (ek, ak)) := by
  rcases h with ⟨-, data, p, ek', ak', -, hinFlight, hbegan⟩ | ⟨hfail, -⟩
  · obtain ⟨hak, hrest⟩ := List.cons.inj (hbegan.log.symm.trans hlog)
    obtain ⟨hek, -⟩ := List.cons.inj hrest
    obtain rfl : ak' = ak := (Event.created.inj hak).2
    obtain rfl : ek' = ek := (Event.created.inj hek).2
    exact hinFlight ▸ .begun hbegan.contexts hbegan.holds
  · exact absurd hstatus hfail

theorem enrollBegin_shows (h : Shows opens keys s) {env : CallEnv} (helevated : env.elevated = true) {draws : BeginDraws}
    {outcomes : List Outcome} (hexecuted : draws.Executed outcomes) :
    let r := (rootHeraldEnrollBegin sys true env s.inFlight).run { tpm := s.tpm, outcomes }
    (r.1.status, r.1.json) = begun sys env draws.ak ∧
      Shows opens (if (gatherEkEnrollData sys.sha256 env.sources).isSome ∧ env.allocated = true then some (draws.ek, draws.ak)
        else keys) ⟨r.1.inFlight, r.2.tpm⟩ := by
  intro r
  have hready : Ready opens s.tpm.contexts r.2 := rootHeraldEnrollBegin_ready sys h.inFlight.within true env _ (h.ready outcomes)
  have houtcome : BeginOutcome s.inFlight s.tpm r.1 r.2.tpm :=
    rootHeraldEnrollBegin_outcome sys true env h.inFlight.opened { tpm := s.tpm, outcomes } rfl
  cases hdata : gatherEkEnrollData sys.sha256 env.sources with
  | none =>
    have hr : r.1.status = .enrollmentFailed ∧ r.1.json = none := by
      have hrun : rootHeraldEnrollBegin sys true env s.inFlight =
          Pure.pure { status := .enrollmentFailed, inFlight := s.inFlight } := by
        simp only [rootHeraldEnrollBegin, helevated, hdata, not_true_eq_false, if_false]
      simp only [r, hrun]
      exact ⟨rfl, rfl⟩
    refine ⟨by rw [begun, hdata, hr.1, hr.2], hready.numbered, hready.openCredential, ?_⟩
    rw [if_neg fun hsome => Bool.false_ne_true hsome.1]
    exact houtcome.inFlight_kept (by rw [hr.1]; decide) h.inFlight
  | some ek =>
    have hanswer : if env.allocated then r.1.status = .ok ∧ r.1.json = some (jsonBuild (buildEnrollFields ek draws.ak.publicArea)) ∧
        r.2.tpm.log = .created .owner draws.ak :: .created .endorsement draws.ek :: s.tpm.log
        else r.1.status = .internal ∧ r.1.json = none :=
      rootHeraldEnrollBegin_answered sys h.numbered helevated hdata hexecuted { tpm := s.tpm, outcomes } ⟨rfl, rfl⟩
    by_cases hallocated : env.allocated = true
    · rw [if_pos hallocated] at hanswer
      obtain ⟨hstatus, hjson, hlog⟩ := hanswer
      refine ⟨Prod.ext (hstatus.trans ?_) (hjson.trans ?_), hready.numbered, hready.openCredential, ?_⟩
      · simp only [begun, hdata, if_pos hallocated]
      · simp only [begun, hdata, if_pos hallocated]
      · rw [if_pos ⟨rfl, hallocated⟩]
        exact houtcome.inFlight_begun hstatus hlog
    · rw [if_neg hallocated] at hanswer
      obtain ⟨hstatus, hjson⟩ := hanswer
      refine ⟨Prod.ext (hstatus.trans ?_) (hjson.trans ?_), hready.numbered, hready.openCredential, ?_⟩
      · simp only [begun, hdata, if_neg hallocated]
      · simp only [begun, hdata, if_neg hallocated]
      · rw [if_neg fun hand => hallocated hand.2]
        exact houtcome.inFlight_kept (by rw [show r.1.status = .internal from hstatus]; decide) h.inFlight

/-- An EnrollComplete that reaches the driver, with these keys in flight. -/
def completedBy (sys : System) (opens : Key → Key → Bytes → Bytes → Option Bytes) (challenge : Bytes) (allocated : Bool) :
    Option (Key × Key) → EnrollStep
  | none => { status := .notEnrolled, inFlight := none }
  | some keys => completed (jsonGet challenge (text "deviceId")) allocated
      (opens keys.2 keys.1 (sys.base64Decode (jsonGet challenge (text "credentialBlob")))
        (sys.base64Decode (jsonGet challenge (text "encryptedSecret"))))

theorem completed_inFlight (deviceId : Bytes) (allocated : Bool) (secret : Option Bytes) :
    (completed deviceId allocated secret).inFlight = none := by
  cases secret with
  | none => rfl
  | some secret => cases allocated <;> rfl

theorem enrollComplete_shows (h : Shows opens keys s) {sealedFor : Key × Key} {challenge secret : Bytes} (allocated : Bool)
    {outcomes : List Outcome} (hsealed : Sealed sys opens sealedFor challenge secret)
    (hexecuted : CompleteExecuted secret.length outcomes) :
    let r := (rootHeraldEnrollComplete sys (some challenge) true allocated s.inFlight).run { tpm := s.tpm, outcomes }
    r.1 = completedBy sys opens challenge allocated keys ∧ Shows opens none ⟨r.1.inFlight, r.2.tpm⟩ := by
  intro r
  have hready : Ready opens s.tpm.contexts r.2 :=
    rootHeraldEnrollComplete_ready sys h.inFlight.within (some challenge) true allocated _ (h.ready outcomes)
  suffices hr : r.1 = completedBy sys opens challenge allocated keys by
    have hnone : r.1.inFlight = none := by
      rw [hr]
      cases keys with
      | none => rfl
      | some keys => exact completed_inFlight _ _ _
    exact ⟨hr, hready.numbered, hready.openCredential, hnone ▸ .idle⟩
  obtain ⟨inFlight, t⟩ := s
  obtain ⟨-, hopens, hinFlight⟩ := h
  cases hinFlight with
  | idle =>
    simp only [r, rootHeraldEnrollComplete_none]
    rfl
  | begun hcontext hholds =>
    have hmembers : ¬ (jsonGet challenge (text "deviceId") = [] ∨ jsonGet challenge (text "credentialBlob") = [] ∨
        jsonGet challenge (text "encryptedSecret") = []) :=
      not_or.mpr ⟨hsealed.deviceId, not_or.mpr ⟨hsealed.credentialBlob, hsealed.encryptedSecret⟩⟩
    have hrun : Triple (At t outcomes) (rootHeraldEnrollComplete sys (some challenge) true allocated (some _)) fun r _ => _ :=
      .ite (fun hnil => absurd hnil hmembers) fun _ => completeEnrollment_answered sys hholds allocated hexecuted
        ⟨List.length_pos_iff.mpr hsealed.secret_ne, hsealed.secret_lt⟩ fun opened hopened => by
          rw [← hopens] at hsealed
          rw [((hsealed.opens_iff _ _ _).mp hopened).2]
    refine (hrun { tpm := t, outcomes } ⟨rfl, rfl⟩).trans ?_
    rw [hopens]
    rfl

end Simulation
section Independence
variable {ι : Type} {sys : System} {opens : Key → Key → Bytes → Bytes → Option Bytes} {keys keys' begun : Option (Key × Key)}
  {s s' : Process} {c : HandleCall}

theorem HandleCall.run_unreached (sys : System) (h : c.reaches = false) : ∃ r, ∀ s, c.run sys s = (r, s) := by
  cases c with
  | enrollBegin client out env outcomes =>
    cases out with
    | none => exact ⟨_, fun _ => rfl⟩
    | some prior =>
      obtain ⟨mockTpm⟩ := client
      obtain rfl : mockTpm = true := by simpa [reaches] using h
      exact ⟨_, fun _ => rfl⟩
  | enrollComplete client challengeJson out allocated outcomes =>
    cases out with
    | none => exact ⟨_, fun _ => rfl⟩
    | some prior =>
      cases hblank : isBlank challengeJson with
      | true =>
        refine ⟨⟨.invalidArg, some none⟩, fun s => ?_⟩
        simp only [run, clientEnrollComplete, hblank]
        rfl
      | false =>
        obtain ⟨mockTpm⟩ := client
        obtain rfl : mockTpm = true := by simpa [reaches, hblank] using h
        refine ⟨emitHeapJson mockActivation allocated (some none), fun s => ?_⟩
        simp only [run, clientEnrollComplete, hblank]
        rfl

theorem HandleCall.slot_unreached (h : c.reaches = false) (keys : Option (Key × Key)) : c.slot sys keys = keys := by
  cases c with
  | enrollBegin client out env outcomes =>
    rw [slot, begins, h]
    rfl
  | enrollComplete client challengeJson out allocated outcomes =>
    rw [slot, completes, h]
    rfl

/-- An EnrollBegin is answered the same whatever is in flight. -/
theorem HandleCall.begin_shows {client : RootHeraldClient} {out : OutPtr} {env : CallEnv} {outcomes : List Outcome}
    (hc : (HandleCall.enrollBegin client out env outcomes).Orderly sys opens begun) :
    ∃ r, ∀ keys s, Shows opens keys s → (HandleCall.enrollBegin client out env outcomes).returned sys s = r ∧
      Shows opens ((HandleCall.enrollBegin client out env outcomes).slot sys keys)
        ((HandleCall.enrollBegin client out env outcomes).step sys s) := by
  cases hreaches : (HandleCall.enrollBegin client out env outcomes).reaches with
  | false =>
    obtain ⟨r, hrun⟩ := HandleCall.run_unreached sys hreaches
    refine ⟨r, fun keys s h => ⟨congrArg Prod.fst (hrun s), ?_⟩⟩
    rw [step, hrun, slot_unreached hreaches]
    exact h
  | true =>
    obtain ⟨helevated, draws, hexecuted⟩ := hc
    refine ⟨⟨mapRootHeraldStatus (Windows.begun sys env draws.ak).1, some (Windows.begun sys env draws.ak).2⟩,
      fun keys s h => ?_⟩
    obtain ⟨hanswer, hshows⟩ := enrollBegin_shows h helevated hexecuted
    obtain ⟨prior, rfl⟩ : ∃ prior, out = some prior := by
      cases out with
      | none => cases hreaches
      | some prior => exact ⟨prior, rfl⟩
    obtain ⟨mockTpm⟩ := client
    obtain rfl : mockTpm = false := by simpa [reaches] using hreaches
    refine ⟨?_, ?_⟩
    · rw [← hanswer]
      rfl
    · have hslot : (HandleCall.enrollBegin ⟨false⟩ (some prior) env outcomes).slot sys keys =
          if (gatherEkEnrollData sys.sha256 env.sources).isSome ∧ env.allocated = true then some (draws.ek, draws.ak)
          else keys := by
        simp only [slot, completes, begins, hreaches, true_and, drawnKeys_executed hexecuted, Bool.false_eq_true, if_false]
        split_ifs <;> rfl
      rw [hslot]
      exact hshows

/-- An EnrollComplete that gets to the driver is answered by what is in flight. -/
theorem HandleCall.complete_shows (hc : c.Orderly sys opens begun) (hcompletes : c.completes = true) :
    ∃ sealedFor ∈ begun, ∃ challenge secret allocated, Sealed sys opens sealedFor challenge secret ∧
      ∀ keys s, Shows opens keys s →
        c.returned sys s = ⟨mapRootHeraldStatus (completedBy sys opens challenge allocated keys).status,
          some (completedBy sys opens challenge allocated keys).json⟩ ∧ Shows opens (c.slot sys keys) (c.step sys s) := by
  cases c with
  | enrollBegin _ _ _ _ => cases hcompletes
  | enrollComplete client challengeJson out allocated outcomes =>
    obtain ⟨sealedFor, hbegun, challenge, hchallenge, secret, hsealed, hexecuted⟩ := hc hcompletes
    obtain rfl : challengeJson = some challenge := hchallenge
    refine ⟨sealedFor, hbegun, challenge, secret, allocated, hsealed, fun keys s h => ?_⟩
    obtain ⟨hanswer, hshows⟩ := enrollComplete_shows h allocated hsealed hexecuted
    obtain ⟨prior, rfl⟩ : ∃ prior, out = some prior := by
      cases out with
      | none => cases hcompletes
      | some prior => exact ⟨prior, rfl⟩
    have hslot : (HandleCall.enrollComplete client (some challenge) (some prior) allocated outcomes).slot sys keys = none :=
      if_pos hcompletes
    have hreached : isBlank (some challenge) = false ∧ client.mockTpm = false := by
      simpa [completes, reaches] using hcompletes
    refine ⟨?_, ?_⟩
    · rw [← hanswer]
      simp only [returned, run, clientEnrollComplete, hreached.1, hreached.2]
      rfl
    · rw [hslot]
      simp only [step, run, clientEnrollComplete, hreached.1, hreached.2]
      exact hshows

theorem HandleCall.step_shows (hc : c.Orderly sys opens begun) (h : Shows opens keys s) :
    Shows opens (c.slot sys keys) (c.step sys s) := by
  cases hcompletes : c.completes with
  | true =>
    obtain ⟨_, -, _, _, _, -, hshows⟩ := c.complete_shows hc hcompletes
    exact (hshows keys s h).2
  | false =>
    cases c with
    | enrollBegin client out env outcomes =>
      obtain ⟨_, hshows⟩ := HandleCall.begin_shows hc
      exact (hshows keys s h).2
    | enrollComplete client challengeJson out allocated outcomes =>
      have hreaches : (HandleCall.enrollComplete client challengeJson out allocated outcomes).reaches = false := hcompletes
      obtain ⟨r, hrun⟩ := HandleCall.run_unreached sys hreaches
      rw [step, hrun, slot_unreached hreaches]
      exact h

theorem after_shows (calls : List (ι × HandleCall)) (h : Shows opens keys s)
    (hcalls : ∀ c ∈ calls, ∃ begun, c.2.Orderly sys opens begun) :
    Shows opens (after (HandleCall.slot sys) keys calls) (after (HandleCall.step sys) s calls) := by
  induction calls generalizing keys s with
  | nil => exact h
  | cons c calls ih =>
    obtain ⟨begun, hc⟩ := hcalls c List.mem_cons_self
    exact ih (c.2.step_shows hc h) fun c hmem => hcalls c (List.mem_cons_of_mem _ hmem)

/-- The answer to an EnrollComplete tells apart what is in flight. -/
theorem completedBy_injective {sealedFor : Key × Key} {challenge secret : Bytes} (allocated : Bool)
    (hsealed : Sealed sys opens sealedFor challenge secret) (hown : keys' = none ∨ keys' = some sealedFor)
    (h : mapRootHeraldStatus (completedBy sys opens challenge allocated keys).status =
      mapRootHeraldStatus (completedBy sys opens challenge allocated keys').status) : keys = keys' := by
  have hopened : ∀ k : Key × Key, k = sealedFor →
      mapRootHeraldStatus (completedBy sys opens challenge allocated (some k)).status = if allocated then .ok else .internal := by
    intro k hk
    have hopens := (hsealed.opens_iff k.1 k.2 secret).mpr ⟨hk, rfl⟩
    rw [completedBy, hopens, completed]
    cases allocated <;> rfl
  have hrefused : ∀ k : Key × Key, k ≠ sealedFor →
      mapRootHeraldStatus (completedBy sys opens challenge allocated (some k)).status = .server := by
    intro k hk
    have hopens : opens k.2 k.1 (sys.base64Decode (jsonGet challenge (text "credentialBlob")))
        (sys.base64Decode (jsonGet challenge (text "encryptedSecret"))) = none :=
      Option.eq_none_iff_forall_ne_some.mpr fun s hs => hk ((hsealed.opens_iff k.1 k.2 s).mp hs).1
    rw [completedBy, hopens]
    rfl
  have hidle : mapRootHeraldStatus (completedBy sys opens challenge allocated none).status = .notEnrolled := rfl
  rcases hown with rfl | rfl
  · cases keys with
    | none => rfl
    | some k =>
      rw [hidle] at h
      by_cases hk : k = sealedFor
      · rw [hopened k hk] at h
        cases allocated <;> cases h
      · rw [hrefused k hk] at h
        cases h
  · rw [hopened sealedFor rfl] at h
    cases keys with
    | none =>
      rw [hidle] at h
      cases allocated <;> cases h
    | some k =>
      by_cases hk : k = sealedFor
      · rw [hk]
      · rw [hrefused k hk] at h
        cases allocated <;> cases h

theorem HandleCall.returned_eq_iff (hc : c.Orderly sys opens begun) (h : Shows opens keys s) (h' : Shows opens keys' s')
    (hown : keys' = none ∨ keys' = begun) :
    c.returned sys s = c.returned sys s' ↔ (c.completes = true → keys = keys') := by
  cases hcompletes : c.completes with
  | true =>
    obtain ⟨sealedFor, hbegun, challenge, secret, allocated, hsealed, hshows⟩ := c.complete_shows hc hcompletes
    obtain rfl : begun = some sealedFor := hbegun
    rw [(hshows keys s h).1, (hshows keys' s' h').1]
    constructor
    · exact fun heq _ => completedBy_injective allocated hsealed hown (congrArg Returned.status heq)
    · intro heq
      rw [heq rfl]
  | false =>
    refine iff_of_true ?_ fun h => (by cases h)
    cases c with
    | enrollBegin client out env outcomes =>
      obtain ⟨r, hshows⟩ := HandleCall.begin_shows hc
      rw [(hshows keys s h).1, (hshows keys' s' h').1]
    | enrollComplete client challengeJson out allocated outcomes =>
      have hreaches : (HandleCall.enrollComplete client challengeJson out allocated outcomes).reaches = false := hcompletes
      obtain ⟨r, hrun⟩ := HandleCall.run_unreached sys hreaches
      rw [returned, returned, hrun, hrun]

/-- Every handle gets the statuses and blobs of its calls alone exactly if at each EnrollComplete the
enrollment in flight is the one its own calls leave. -/
theorem handles_independent_iff [DecidableEq ι] (sys : System) (opens : Key → Key → Bytes → Bytes → Option Bytes)
    (persistent : Option Key) (calls : List (ι × HandleCall)) (h : Orderly sys opens calls) :
    (∀ u, own u (answers (HandleCall.step sys) (HandleCall.returned sys)
        (Process.start { openCredential := opens, persistent }) calls) =
      answers (HandleCall.step sys) (HandleCall.returned sys)
        (Process.start { openCredential := opens, persistent }) (own u calls)) ↔
      ∀ front u c back, calls = front ++ (u, c) :: back → c.completes = true →
        keysAfter sys front = keysAfter sys (own u front) := by
  have hstart : Shows opens none (Process.start { openCredential := opens, persistent }) := ⟨fun _ _ _ => rfl, rfl, .idle⟩
  have horderly : ∀ e ∈ calls, ∃ begun, e.2.Orderly sys opens begun := by
    intro e hmem
    obtain ⟨front, back, heq⟩ := List.append_of_mem hmem
    exact ⟨_, h front e back heq⟩
  have hplace : ∀ front (e : ι × HandleCall) back, calls = front ++ e :: back →
      (e.2.returned sys (after (HandleCall.step sys) (Process.start { openCredential := opens, persistent }) front) =
        e.2.returned sys (after (HandleCall.step sys) (Process.start { openCredential := opens, persistent }) (own e.1 front)) ↔
      (e.2.completes = true → keysAfter sys front = keysAfter sys (own e.1 front))) := by
    intro front e back heq
    have hfront : ∀ c ∈ front, ∃ begun, c.2.Orderly sys opens begun :=
      fun c hmem => horderly c (heq ▸ List.mem_append_left _ hmem)
    exact HandleCall.returned_eq_iff (h front e back heq) (after_shows front hstart hfront)
      (after_shows (own e.1 front) hstart fun c hmem => hfront c (List.mem_filter.mp hmem).1) (keysAfter_begun _)
  simp only [own_answers_iff]
  constructor
  · intro hsame front u c back heq
    exact (hplace front (u, c) back heq).mp (hsame u front (u, c) back heq rfl)
  · rintro hslot u front ⟨_, c⟩ back heq rfl
    exact (hplace front (_, c) back heq).mpr (hslot front _ c back heq)

end Independence
section Sample

/-- A TPM that opens what was sealed to the first EK and AK. -/
def sampleOpens (ak ek : Key) (_ _ : Bytes) : Option Bytes := if (ek, ak) = (sampleKey 1, sampleKey 2) then some [7] else none

def sampleBegin : HandleCall :=
  .enrollBegin {} (some none) sampleEnv [answered, createdAt 0x80000001 1, createdAt 0x80000002 2]

def sampleComplete : HandleCall := .enrollComplete {} (some sampleChallenge) (some none) true (List.replicate 8 answered)

theorem sampleChallenge_sealed : Sealed sampleSystem sampleOpens (sampleKey 1, sampleKey 2) sampleChallenge [7] where
  deviceId := by decide +kernel
  credentialBlob := by decide +kernel
  encryptedSecret := by decide +kernel
  opens_iff ek ak s := by
    rw [sampleOpens]
    split_ifs with hkeys
    · rw [Option.some_inj, and_iff_right hkeys, eq_comm]
    · exact iff_of_false (by simp) fun h => hkeys h.1
  secret_ne := by decide
  secret_lt := by decide

theorem sampleBegin_orderly (begun : Option (Key × Key)) : sampleBegin.Orderly sampleSystem sampleOpens begun := by
  refine ⟨rfl, ⟨0x80000001, sampleKey 1, 0x80000002, sampleKey 2⟩, ⟨by decide, by decide, by decide, ?_⟩⟩
  exact ⟨_, _, _, _, _, rfl, ⟨4096, [], rfl, by decide⟩, 4096, [], rfl, by decide⟩

theorem sampleComplete_orderly : sampleComplete.Orderly sampleSystem sampleOpens (some (sampleKey 1, sampleKey 2)) := by
  have hwhole (size : Nat) (h : 10 + size ≤ 4096) : Whole size answered := ⟨4096, _, rfl, h⟩
  refine fun _ => ⟨_, rfl, _, rfl, [7], sampleChallenge_sealed, ?_⟩
  exact ⟨_, _, _, _, _, _, _, _, rfl, ⟨4096, _, rfl, by decide, by decide⟩, hwhole _ (by decide), hwhole _ (by decide),
    hwhole _ (by decide), hwhole _ (by decide), hwhole _ (by decide), hwhole _ (by decide)⟩

/-- Each handle begins, and then each completes. -/
def sampleHandleCalls : List (Bool × HandleCall) :=
  [(false, sampleBegin), (true, sampleBegin), (false, sampleComplete), (true, sampleComplete)]

private theorem no_places {α : Type} {P : List α → α → Prop} : ∀ front a back, ([] : List α) = front ++ a :: back → P front a :=
  fun front a back h => absurd h (by simp)

theorem sampleHandleCalls_orderly : Orderly sampleSystem sampleOpens sampleHandleCalls :=
  forall_places_cons.mpr ⟨sampleBegin_orderly _, forall_places_cons.mpr ⟨sampleBegin_orderly _,
    forall_places_cons.mpr ⟨sampleComplete_orderly, forall_places_cons.mpr ⟨sampleComplete_orderly, no_places⟩⟩⟩⟩

/-- One handle behind the other. -/
def sampleTurns : List (Bool × HandleCall) :=
  [(false, sampleBegin), (false, sampleComplete), (true, sampleBegin), (true, sampleComplete)]

theorem sampleTurns_orderly : Orderly sampleSystem sampleOpens sampleTurns :=
  forall_places_cons.mpr ⟨sampleBegin_orderly _, forall_places_cons.mpr ⟨sampleComplete_orderly,
    forall_places_cons.mpr ⟨sampleBegin_orderly _, forall_places_cons.mpr ⟨sampleComplete_orderly, no_places⟩⟩⟩⟩

/-- Handles that take turns do not disturb each other: the second returns what it would on its own. -/
theorem handles_in_turn : Orderly sampleSystem sampleOpens sampleTurns ∧
    own true (answers (HandleCall.step sampleSystem) (HandleCall.returned sampleSystem)
        (Process.start { openCredential := sampleOpens, persistent := none }) sampleTurns) =
      answers (HandleCall.step sampleSystem) (HandleCall.returned sampleSystem)
        (Process.start { openCredential := sampleOpens, persistent := none }) (own true sampleTurns) := by
  refine ⟨sampleTurns_orderly,
    (handles_independent_iff sampleSystem sampleOpens none sampleTurns sampleTurns_orderly).mpr ?_ true⟩
  have hplaces : ∀ front e back, sampleTurns = front ++ e :: back → e.2.completes = true →
      keysAfter sampleSystem front = keysAfter sampleSystem (own e.1 front) := by
    refine forall_places_cons.mpr ⟨fun _ => rfl, forall_places_cons.mpr ⟨fun _ => ?_, forall_places_cons.mpr ⟨?_,
      forall_places_cons.mpr ⟨fun _ => ?_, no_places⟩⟩⟩⟩
    · decide
    · exact fun h => by cases h
    · decide
  exact fun front u c back => hplaces front (u, c) back

/-- Behind the second EnrollBegin one EnrollComplete takes the enrollment, and the other finds none. -/
theorem handles_interfere : ¬ ∀ (sys : System) (opens : Key → Key → Bytes → Bytes → Option Bytes) (persistent : Option Key)
    (calls : List (Bool × HandleCall)), Orderly sys opens calls →
      ∀ u, own u (answers (HandleCall.step sys) (HandleCall.returned sys)
          (Process.start { openCredential := opens, persistent }) calls) =
        answers (HandleCall.step sys) (HandleCall.returned sys)
          (Process.start { openCredential := opens, persistent }) (own u calls) := by
  intro h
  have hsame := h sampleSystem sampleOpens none sampleHandleCalls sampleHandleCalls_orderly true
  exact absurd hsame (by decide +kernel)

end Sample
end RootHerald.Windows
