import RootHerald.Windows.EnrollmentSteps

/-! Enrollment over whole runs of a process: what is ever stored at the persistent handle. -/
namespace RootHerald.Windows
open Lib

section Trace

/-- The EK created last. -/
def lastEk : List Event → Option Key
  | [] => none
  | .created .endorsement ek :: _ => some ek
  | _ :: log => lastEk log

/-- EnrollBegin returned OK with json behind before, and not again since. -/
structure LastBegin (log since : List Event) (json : Bytes) (before : List Event) : Prop where
  log_eq : log = since ++ .began json :: before
  latest : ∀ json', .began json' ∉ since

/-- The last EnrollBegin emitted the public area of the key, and since then a secret that is not empty
was released for the key and the EK of that EnrollBegin. -/
def Justified (log : List Event) (key : Key) : Prop :=
  ∃ since json before ek, LastBegin log since json before ∧
    (∃ data, json = jsonBuild (buildEnrollFields data key.publicArea)) ∧ lastEk before = some ek ∧
      ∃ secret, .activated key ek secret ∈ since ∧ secret ≠ []

/-- The slot after a log. -/
def slotAfter (initial : Option Key) : List Event → Option Key
  | [] => initial
  | .stored key :: _ => some key
  | .cleared :: _ => none
  | _ :: log => slotAfter initial log

/-- How often EnrollComplete returned OK since the last EnrollBegin did. -/
def completions : List Event → Nat
  | [] => 0
  | .began _ :: _ => 0
  | .completed :: log => completions log + 1
  | _ :: log => completions log

/-- The log explains the slot, every key that was stored was justified then, and no EnrollBegin was
completed twice. -/
structure Lawful (initial slot : Option Key) (log : List Event) : Prop where
  slot_eq : slot = slotAfter initial log
  stored : ∀ key before, .stored key :: before <:+ log → Justified before key
  once : ∀ log', log' <:+ log → completions log' ≤ 1

/-- The enrollment of the last EnrollBegin, with its keys, is not completed. -/
def Pending (log : List Event) (ek ak : Key) : Prop :=
  ∃ since json before, LastBegin log since json before ∧
    (∃ data, json = jsonBuild (buildEnrollFields data ak.publicArea)) ∧ lastEk before = some ek ∧ .completed ∉ since

variable {initial slot : Option Key} {log : List Event} {ek ak : Key}

theorem LastBegin.cons {since before : List Event} {json : Bytes} (h : LastBegin log since json before) {e : Event}
    (he : ∀ json', e ≠ .began json') : LastBegin (e :: log) (e :: since) json before where
  log_eq := by rw [h.log_eq, List.cons_append]
  latest json' hmem := (List.mem_cons.mp hmem).elim (fun heq => he json' heq.symm) (h.latest json')

theorem Justified.cons {key : Key} (h : Justified log key) {e : Event} (he : ∀ json, e ≠ .began json) :
    Justified (e :: log) key := by
  obtain ⟨since, json, before, ek, hlast, hjson, hek, secret, hmem, hsecret⟩ := h
  exact ⟨e :: since, json, before, ek, hlast.cons he, hjson, hek, secret, List.mem_cons_of_mem _ hmem, hsecret⟩

theorem Pending.cons (h : Pending log ek ak) {e : Event} (he : ∀ json, e ≠ .began json) (hc : e ≠ .completed) :
    Pending (e :: log) ek ak := by
  obtain ⟨since, json, before, hlast, hjson, hek, hopen⟩ := h
  refine ⟨e :: since, json, before, hlast.cons he, hjson, hek, fun hmem => ?_⟩
  exact (List.mem_cons.mp hmem).elim (fun heq => hc heq.symm) hopen

theorem Pending.justified (h : Pending log ek ak) {secret : Bytes} (hsecret : secret ≠ []) :
    Justified (.activated ak ek secret :: log) ak := by
  obtain ⟨since, json, before, hlast, hjson, hek, -⟩ := h
  exact ⟨_, json, before, ek, hlast.cons (fun _ h => by cases h), hjson, hek, secret, List.mem_cons_self, hsecret⟩

theorem Pending.completions_eq (h : Pending log ek ak) : completions log = 0 := by
  obtain ⟨since, json, before, ⟨rfl, hlatest⟩, -, -, hopen⟩ := h
  induction since with
  | nil => rfl
  | cons e since ih =>
    have htail := ih (fun json' hmem => hlatest json' (List.mem_cons_of_mem _ hmem))
      fun hmem => hopen (List.mem_cons_of_mem _ hmem)
    cases e with
    | began json' => exact absurd List.mem_cons_self (hlatest json')
    | completed => exact absurd List.mem_cons_self hopen
    | created _ _ => exact htail
    | activated _ _ _ => exact htail
    | stored _ => exact htail
    | cleared => exact htail

theorem Lawful.cons (h : Lawful initial slot log) {e : Event} {slot' : Option Key}
    (hslot : slot' = slotAfter initial (e :: log)) (hstored : ∀ key, e = .stored key → Justified log key)
    (honce : completions (e :: log) ≤ 1) : Lawful initial slot' (e :: log) where
  slot_eq := hslot
  stored key before hsuffix := by
    rcases List.suffix_cons_iff.mp hsuffix with heq | hsuffix
    · obtain ⟨he, rfl⟩ := List.cons.inj heq
      exact hstored key he.symm
    · exact h.stored key before hsuffix
  once log' hsuffix := by
    rcases List.suffix_cons_iff.mp hsuffix with rfl | hsuffix
    · exact honce
    · exact h.once log' hsuffix

theorem Lawful.completions_le (h : Lawful initial slot log) : completions log ≤ 1 := h.once log (List.suffix_refl log)

theorem Lawful.created (h : Lawful initial slot log) (hierarchy : Hierarchy) (key : Key) :
    Lawful initial slot (.created hierarchy key :: log) :=
  h.cons h.slot_eq (fun _ h => by cases h) h.completions_le

theorem Lawful.activated (h : Lawful initial slot log) (ak ek : Key) (secret : Bytes) :
    Lawful initial slot (.activated ak ek secret :: log) :=
  h.cons h.slot_eq (fun _ h => by cases h) h.completions_le

theorem Lawful.cleared (h : Lawful initial slot log) : Lawful initial none (.cleared :: log) :=
  h.cons rfl (fun _ h => by cases h) h.completions_le

theorem Lawful.store (h : Lawful initial slot log) {key : Key} (hkey : Justified log key) :
    Lawful initial (some key) (.stored key :: log) :=
  h.cons rfl (fun _ heq => by cases heq; exact hkey) h.completions_le

theorem Lawful.began (h : Lawful initial slot log) (json : Bytes) : Lawful initial slot (.began json :: log) :=
  h.cons h.slot_eq (fun _ h => by cases h) (Nat.zero_le 1)

theorem Lawful.completed (h : Lawful initial slot log) (hpending : Pending log ek ak) :
    Lawful initial slot (.completed :: log) :=
  h.cons h.slot_eq (fun _ h => by cases h) (by rw [completions, hpending.completions_eq])

theorem Lawful.allCreated (h : Lawful initial slot log) {es : List Event} (hes : AllCreated es) :
    Lawful initial slot (es ++ log) := by
  induction es with
  | nil => exact h
  | cons e es ih =>
    obtain ⟨hierarchy, key, rfl⟩ := hes e List.mem_cons_self
    exact (ih fun e he => hes e (List.mem_cons_of_mem _ he)).created hierarchy key

theorem Pending.allCreated (h : Pending log ek ak) {es : List Event} (hes : AllCreated es) :
    Pending (es ++ log) ek ak := by
  induction es with
  | nil => exact h
  | cons e es ih =>
    obtain ⟨hierarchy, key, rfl⟩ := hes e List.mem_cons_self
    exact (ih fun e he => hes e (List.mem_cons_of_mem _ he)).cons (fun _ h => by cases h) (fun h => by cases h)

end Trace

section Run

/-- A call of the client, with its environment and what becomes of the commands it sends. -/
inductive Call where
  | enrollBegin (outEnrollJson : Bool) (env : CallEnv) (outcomes : List Outcome)
  | enrollComplete (challengeJson : Option Bytes) (outActivateJson allocated : Bool) (outcomes : List Outcome)
  | collectEvidence (nonceB64 : Option Bytes) (outEvidenceJson : Bool) (env : CollectEnv) (outcomes : List Outcome)
  | getStatus (outStatus pcpAvailable : Bool) (env : CallEnv) (outcomes : List Outcome)

/-- The process and the TPM it talks to. -/
structure Process where
  inFlight : InFlight := none
  tpm : Tpm

variable (sys : System)

/-- A call, with an OK of the enrollment calls in the log. -/
def Process.step (s : Process) : Call → Process
  | .enrollBegin outEnrollJson env outcomes =>
    let (r, w) := (rootHeraldEnrollBegin sys outEnrollJson env s.inFlight).run { tpm := s.tpm, outcomes }
    ⟨r.inFlight, match r.status, r.json with
      | .ok, some json => w.tpm.record (.began json)
      | _, _ => w.tpm⟩
  | .enrollComplete challengeJson outActivateJson allocated outcomes =>
    let (r, w) := (rootHeraldEnrollComplete sys challengeJson outActivateJson allocated s.inFlight).run { tpm := s.tpm, outcomes }
    ⟨r.inFlight, if r.status = .ok then w.tpm.record .completed else w.tpm⟩
  | .collectEvidence nonceB64 outEvidenceJson env outcomes =>
    { s with tpm := ((rootHeraldCollectEvidence sys nonceB64 outEvidenceJson env).run { tpm := s.tpm, outcomes }).2.tpm }
  | .getStatus outStatus pcpAvailable env outcomes =>
    { s with tpm := ((rootHeraldGetStatus sys outStatus pcpAvailable env).run { tpm := s.tpm, outcomes }).2.tpm }

def Process.run (s : Process) (calls : List Call) : Process := calls.foldl (step sys) s

/-- The log is lawful, and an enrollment in flight is that of the last EnrollBegin, with its keys in
its context. -/
structure Process.Inv (initial : Option Key) (s : Process) : Prop where
  lawful : Lawful initial s.tpm.persistent s.tpm.log
  pending : ∀ p ∈ s.inFlight, ∃ context ek ak, context < s.tpm.contexts ∧ Holds p context ek ak s.tpm ∧
    Pending s.tpm.log ek ak

variable {sys : System} {initial : Option Key} {p : TbsKeyProvider} {context : Context} {ek ak : Key} {t t' : Tpm}

private theorem transient_ne {handle : Handle} (h : isTransient handle = true) : handle ≠ kTbsAkPersistentHandle := by
  rintro rfl
  exact absurd h (by decide)

theorem Holds.keyAt_ak (h : Holds p context ek ak t) : t.keyAt (contextOf p.tpm) p.akHandle = some ak := by
  rw [h.tpm, Tpm.keyAt, if_neg (transient_ne h.akTransient)]
  exact h.akAt

theorem Holds.keyAt_ek (h : Holds p context ek ak t) : t.keyAt (contextOf p.tpm) p.ekHandle = some ek := by
  rw [h.tpm, Tpm.keyAt, if_neg (transient_ne h.ekTransient)]
  exact h.ekAt

/-- What an activation of the enrollment in flight leaves; with a secret recovered, the AK may be stored. -/
theorem Activation.lawful {secret : Bytes} (hact : Activation (contextOf p.tpm) p.akHandle p.ekHandle t secret t')
    (hholds : Holds p context ek ak t) (hpending : Pending t.log ek ak) (h : Lawful initial t.persistent t.log) :
    Lawful initial t'.persistent t'.log ∧ Pending t'.log ek ak ∧ Holds p context ek ak t' ∧
      (secret ≠ [] → Justified t'.log ak) := by
  cases hact with
  | refused => exact ⟨h, hpending, hholds, fun hne => absurd rfl hne⟩
  | released hak hek hsecret =>
    obtain rfl := Option.some.inj (hholds.keyAt_ak.symm.trans hak)
    obtain rfl := Option.some.inj (hholds.keyAt_ek.symm.trans hek)
    refine ⟨h.activated _ _ _, hpending.cons (fun _ h => by cases h) (fun h => by cases h), ?_, fun hne => ?_⟩
    · exact { hholds with ekAt := hholds.ekAt, akAt := hholds.akAt }
    · exact hpending.justified (hsecret hne)

theorem Eviction.lawful {evicted : Bool} (hevict : Eviction (contextOf p.tpm) p.akHandle t evicted t')
    (hholds : Holds p context ek ak t) (hpending : Pending t.log ek ak) (hjustified : Justified t.log ak)
    (h : Lawful initial t.persistent t.log) : Lawful initial t'.persistent t'.log ∧ Pending t'.log ek ak := by
  have hcleared : Pending (.cleared :: t.log) ek ak := hpending.cons (fun _ h => by cases h) (fun h => by cases h)
  cases hevict with
  | kept => exact ⟨h, hpending⟩
  | cleared _ => exact ⟨h.cleared, hcleared⟩
  | stored hkey =>
    obtain rfl := Option.some.inj (hholds.keyAt_ak.symm.trans hkey)
    exact ⟨h.store hjustified, hpending.cons (fun _ h => by cases h) (fun h => by cases h)⟩
  | replaced hkey =>
    obtain rfl := Option.some.inj (hholds.keyAt_ak.symm.trans hkey)
    exact ⟨h.cleared.store (hjustified.cons fun _ h => by cases h),
      hcleared.cons (fun _ h => by cases h) (fun h => by cases h)⟩

theorem Completion.lawful {status : RootHeraldResult} (hcomp : Completion p t status t')
    (hholds : Holds p context ek ak t) (hpending : Pending t.log ek ak) (h : Lawful initial t.persistent t.log) :
    Lawful initial t'.persistent t'.log ∧ Pending t'.log ek ak := by
  cases hcomp with
  | refused hact hlocal =>
    obtain ⟨h, hpending, -⟩ := hact.lawful hholds hpending h
    rw [hlocal.persistent, hlocal.log]
    exact ⟨h, hpending⟩
  | activated hsecret hact hevict hlocal =>
    obtain ⟨h, hpending, hholds, hjustified⟩ := hact.lawful hholds hpending h
    rw [hlocal.persistent, hlocal.log]
    exact hevict.lawful hholds hpending (hjustified hsecret) h

theorem Untouched.inv {inFlight : InFlight} (hsame : Untouched t t') (h : Process.Inv initial ⟨inFlight, t⟩) :
    Process.Inv initial ⟨inFlight, t'⟩ := by
  constructor
  · rw [hsame.persistent, hsame.log]
    exact h.lawful
  · intro p hp
    obtain ⟨context, ek, ak, hlt, hholds, hpending⟩ := h.pending p hp
    refine ⟨context, ek, ak, hlt.trans_le hsame.contexts, ?_, by rw [hsame.log]; exact hpending⟩
    exact { hholds with
      ekAt := (hsame.objects _ hlt _).trans hholds.ekAt, akAt := (hsame.objects _ hlt _).trans hholds.akAt }

theorem BeginOutcome.inv {inFlight : InFlight} {r : EnrollStep} (hbegin : BeginOutcome inFlight t r t')
    (h : Process.Inv initial ⟨inFlight, t⟩) :
    Process.Inv initial ⟨r.inFlight, match r.status, r.json with
      | .ok, some json => t'.record (.began json)
      | _, _ => t'⟩ := by
  rcases hbegin with ⟨hok, data, p, ek, ak, hjson, hinFlight, hbegan⟩ | ⟨hfail, hinFlight, es, hes, hlocal⟩
  · rw [hok, hjson, hinFlight]
    have hlog : Lawful initial t'.persistent t'.log := by
      rw [hbegan.persistent, hbegan.log]
      exact (h.lawful.created _ _).created _ _
    refine ⟨hlog.began _, fun p' hp' => ?_⟩
    obtain rfl := Option.some.inj hp'
    have hholds := hbegan.holds
    refine ⟨t.contexts, ek, ak, hbegan.contexts, { hholds with ekAt := hholds.ekAt, akAt := hholds.akAt }, ?_⟩
    exact ⟨[], _, t'.log, ⟨rfl, fun _ h => by cases h⟩, ⟨data, rfl⟩, by rw [hbegan.log]; rfl, fun h => by cases h⟩
  · have hsame : (match r.status, r.json with
        | .ok, some json => t'.record (.began json)
        | _, _ => t') = t' := by
      split
      · rename_i hok _
        exact absurd hok hfail
      · rfl
    rw [hsame, hinFlight]
    constructor
    · rw [hlocal.persistent, hlocal.log]
      exact h.lawful.allCreated hes
    · intro p hp
      obtain ⟨context, ek, ak, hlt, hholds, hpending⟩ := h.pending p hp
      refine ⟨context, ek, ak, hlt.trans_le hlocal.contexts, hholds.of_local hlocal (ne_of_lt hlt), ?_⟩
      rw [hlocal.log]
      exact hpending.allCreated hes

theorem CompleteOutcome.inv {r : EnrollStep} (hcomplete : CompleteOutcome p t r t')
    (h : Process.Inv initial ⟨some p, t⟩) :
    Process.Inv initial ⟨r.inFlight, if r.status = .ok then t'.record .completed else t'⟩ := by
  rcases hcomplete with ⟨hinvalid, hinFlight, rfl⟩ | ⟨hinFlight, hcomp⟩
  · rw [hinvalid, hinFlight]
    exact h
  · obtain ⟨context, ek, ak, -, hholds, hpending⟩ := h.pending p rfl
    obtain ⟨hlawful, hpending⟩ := hcomp.lawful hholds hpending h.lawful
    rw [hinFlight]
    refine ⟨?_, fun p' hp' => (by cases hp')⟩
    split_ifs
    · exact hlawful.completed hpending
    · exact hlawful

theorem Process.step_inv {s : Process} (h : s.Inv initial) (c : Call) : (s.step sys c).Inv initial := by
  cases c with
  | enrollBegin outEnrollJson env outcomes =>
    have hold : ∀ old ∈ s.inFlight, ∃ context < s.tpm.contexts, old.tpm = some context := by
      intro old hmem
      obtain ⟨context, ek, ak, hlt, hholds, -⟩ := h.pending old hmem
      exact ⟨context, hlt, hholds.tpm⟩
    exact (rootHeraldEnrollBegin_outcome sys outEnrollJson env hold { tpm := s.tpm, outcomes } rfl).inv h
  | enrollComplete challengeJson outActivateJson allocated outcomes =>
    obtain ⟨inFlight, t⟩ := s
    cases inFlight with
    | none =>
      simp only [step, rootHeraldEnrollComplete_none]
      rw [if_neg (by split_ifs <;> decide)]
      exact h
    | some p =>
      exact (rootHeraldEnrollComplete_outcome p t sys challengeJson outActivateJson allocated { tpm := t, outcomes } rfl).inv h
  | collectEvidence nonceB64 outEvidenceJson env outcomes =>
    exact (rootHeraldCollectEvidence_untouched sys nonceB64 outEvidenceJson env { tpm := s.tpm, outcomes } (.refl _)).inv h
  | getStatus outStatus pcpAvailable env outcomes =>
    exact (rootHeraldGetStatus_untouched sys outStatus pcpAvailable env { tpm := s.tpm, outcomes } (.refl _)).inv h

theorem Process.run_inv (calls : List Call) {s : Process} (h : s.Inv initial) : (s.run sys calls).Inv initial := by
  induction calls generalizing s with
  | nil => exact h
  | cons c calls ih => exact ih (s.step_inv h c)

/-- A process that begins with any TPM, and no enrollment in flight. -/
def Process.start (t : Tpm) : Process := { tpm := { t with log := [] } }

theorem Process.start_inv (t : Tpm) : (Process.start t).Inv t.persistent where
  lawful := ⟨rfl, fun _ _ h => (List.cons_ne_nil _ _ (List.suffix_nil.mp h)).elim,
    fun _ h => by rw [List.suffix_nil.mp h]; decide⟩
  pending _ h := by cases h

/-- In every run, for every pattern of failing commands: a key is stored at the persistent handle only
behind the EnrollBegin that emitted its public area last and behind the activation that released a
secret for it and the EK of that EnrollBegin; each EnrollBegin is completed at most once; and without
an enrollment in flight EnrollComplete sends no command and answers NOT_ENROLLED. -/
theorem enrollment_contract (sys : System) (t : Tpm) (calls : List Call) :
    Lawful t.persistent ((Process.start t).run sys calls).tpm.persistent ((Process.start t).run sys calls).tpm.log ∧
      ∀ challenge allocated w, (rootHeraldEnrollComplete sys (some challenge) true allocated none).run w =
        ({ status := .notEnrolled, inFlight := none }, w) :=
  ⟨(Process.run_inv calls (Process.start_inv t)).lawful, fun challenge allocated w =>
    rootHeraldEnrollComplete_none sys (some challenge) true allocated w⟩

end Run

section Sample

def sampleKey (b : UInt8) : Key := ⟨[b], List.cons_ne_nil b [], by rw [List.length_singleton]; decide⟩

def sampleSystem : System where
  sha1 := id
  sha256 := id
  base64Decode := fun s => (Base64.decode s).getD []
  parseDerCertificate := fun _ => {}

def sampleChallenge : Bytes :=
  text "\x7b\"deviceId\":\"d\",\"credentialBlob\":\"AAA=\",\"encryptedSecret\":\"AAA=\"\x7d"

/-- Elevated, on a device that has an EK and no certificate for it. -/
def sampleEnv : CallEnv where
  elevated := true
  sources := {
    certStore := [], pcpOpens := true, ekPublicKey := [1], ekCertificate := [], httpGet := fun _ => (404, [])
    odcaIntermediates := none, intermediateStore := [] }
  allocated := true

def answered : Outcome := .executed 4096 ⟨0x03000000, sampleKey 0, []⟩

/-- The response with a new key behind the handle. -/
def createdAt (handle : Handle) (b : UInt8) : Outcome := .executed 4096 ⟨handle, sampleKey b, []⟩

/-- A first enrollment, with nothing at the persistent handle. -/
def sampleCalls : List Call := [
  .enrollBegin true sampleEnv [answered, createdAt 0x80000001 1, createdAt 0x80000002 2],
  .enrollComplete (some sampleChallenge) true true
    [answered, answered, answered, answered, .refused 0x18A, answered, answered, answered]]

example : ((Process.start { openCredential := fun _ _ _ _ => some [7] }).run sampleSystem sampleCalls).tpm.log.take 3 =
    [.completed, .stored (sampleKey 2), .activated (sampleKey 2) (sampleKey 1) [7]] := by
  decide +kernel

end Sample
end RootHerald.Windows
