import RootHerald.Windows.ClientCommands
import RootHerald.Windows.HandleLedger

/-! The commands of whole runs as bytes: the TPM reads in them what the client meant, and answers as it answers
the command. -/
namespace RootHerald.Windows
open Lib Wire

section Transport

/-- The hierarchy whose handle and template these are. -/
def hierarchyOf (handle : Nat) (inPublic : RsaPublic) : Option Hierarchy :=
  [.owner, .endorsement].find? fun hierarchy => hierarchy.handle = handle ∧ hierarchy.inPublic = inPublic

/-- What the TPM executes for a request; one the client has no use for is refused. -/
def commandOf : (Σ code, Request code) → Option Command
  | ⟨.createPrimary, ⟨[handle], [auth], parameters⟩⟩ =>
    if auth = passwordSession then (hierarchyOf handle parameters.inPublic).map .createPrimary else none
  | ⟨.startAuthSession, ⟨[_, _], [], _⟩⟩ => some .startAuthSession
  | ⟨.policySecret, ⟨[handle, session], [auth], _⟩⟩ =>
    if handle = Hierarchy.endorsement.handle ∧ auth = passwordSession then some (.policySecret session) else none
  | ⟨.activateCredential, ⟨[activateHandle, keyHandle], [auth, policy], (credential, secret)⟩⟩ =>
    if auth = passwordSession then
      some (.activateCredential activateHandle keyHandle policy.sessionHandle (writeTpm2b credential) (writeTpm2b secret))
    else none
  | ⟨.flushContext, ⟨[], [], handle⟩⟩ => some (.flushContext handle)
  | ⟨.readPublic, ⟨[handle], [], _⟩⟩ => some (.readPublic handle)
  | ⟨.evictControl, ⟨[handle, objectHandle], [auth], persistentHandle⟩⟩ =>
    if handle = Hierarchy.owner.handle ∧ auth = passwordSession then some (.evictControl objectHandle persistentHandle)
    else none
  | _ => none

/-- Tbsip_Submit_Command with the bytes of a command, those the TPM cannot read refused. -/
def submitBytes (context : Context) (cmd : Bytes) : Tbs Bytes := do
  match ← nextOutcome with
  | .unsent => return []
  | .refused code => return refusal code
  | .executed arriving drawn =>
    match (unmarshal cmd).bind commandOf with
    | none => return (refusal 0).take arriving
    | some c => submit context c arriving drawn

theorem hierarchyOf_self (hierarchy : Hierarchy) : hierarchyOf hierarchy.handle hierarchy.inPublic = some hierarchy := by
  cases hierarchy <;> decide +kernel

theorem commandOf_request {cmd : Command} (h : cmd.Readable) : commandOf cmd.request = some cmd := by
  cases cmd with
  | createPrimary hierarchy =>
    change (if passwordSession = passwordSession then (hierarchyOf hierarchy.handle hierarchy.inPublic).map _ else none) = _
    rw [if_pos rfl, hierarchyOf_self]
    rfl
  | startAuthSession => rfl
  | policySecret session => rfl
  | activateCredential activateHandle keyHandle session credentialBlob encryptedSecret =>
    obtain ⟨-, hcredential, hsecret⟩ := h
    change some (Command.activateCredential activateHandle keyHandle session (writeTpm2b (credentialBlob.drop 2))
      (writeTpm2b (encryptedSecret.drop 2))) = _
    rw [← (tpm2b_drop hcredential).2, ← (tpm2b_drop hsecret).2]
  | flushContext handle => rfl
  | readPublic handle => rfl
  | evictControl objectHandle persistentHandle => rfl

/-- The bytes of a command do what the command does. -/
theorem submitBytes_eq {cmd : Command} (h : cmd.Readable) (context : Context) :
    submitBytes context cmd.bytes = submitCommand context cmd := by
  unfold submitBytes submitCommand
  congr 1
  funext outcome
  cases outcome with
  | unsent => rfl
  | refused code => rfl
  | executed arriving drawn =>
    simp only [(unmarshal_bytes_iff cmd).mpr h, Option.bind_some, commandOf_request h]

end Transport

section Handles

/-- The handles are those of a TPM. -/
def Command.Addressed : Command → Prop
  | .createPrimary _ | .startAuthSession => True
  | .policySecret session => session < 2 ^ 32
  | .activateCredential activateHandle keyHandle session _ _ =>
    activateHandle < 2 ^ 32 ∧ keyHandle < 2 ^ 32 ∧ session < 2 ^ 32
  | .flushContext handle => handle < 2 ^ 32
  | .readPublic handle => handle < 2 ^ 32
  | .evictControl objectHandle persistentHandle => objectHandle < 2 ^ 32 ∧ persistentHandle < 2 ^ 32

/-- The blobs of an activation are TPM2B. -/
def Command.Framed : Command → Prop
  | .activateCredential _ _ _ credentialBlob encryptedSecret => Tpm2b credentialBlob ∧ Tpm2b encryptedSecret
  | _ => True

theorem Command.readable_iff (cmd : Command) : cmd.Readable ↔ cmd.Addressed ∧ cmd.Framed := by
  cases cmd <;> simp [Readable, Addressed, Framed]

/-- Every command sent so far has the handles of a TPM. -/
def Ranged (w : World) : Prop := ∀ s ∈ w.sent, s.cmd.Addressed

variable {tpm : TpmCommands} {handle : Handle}

theorem readU32_lt (p : Bytes) (i : Nat) : readU32 p i < 2 ^ 32 := by
  calc readU32 p i < 256 ^ 4 := leNat_lt [p.getD (i + 3) 0, p.getD (i + 2) 0, p.getD (i + 1) 0, p.getD i 0]
    _ = 2 ^ 32 := by norm_num

theorem sendCommand_ranged {cmd : Command} (hcmd : cmd.Addressed) : Triple Ranged (sendCommand tpm cmd) fun _ => Ranged := by
  cases tpm with
  | none => exact .pure fun _ h => h
  | some context =>
    refine .bind (Q := fun _ => Ranged) (fun w h => ?_) fun resp => .bind (.update fun w h => ?_) fun _ => .pure fun _ h => h
    · intro s hs
      rw [submitCommand_sent context cmd w.sent w rfl] at hs
      exact h s hs
    · exact List.forall_mem_cons.mpr ⟨hcmd, h⟩

theorem createEk_ranged : Triple Ranged (createEk tpm) fun handle w => handle < 2 ^ 32 ∧ Ranged w := by
  refine .bind (sendCommand_ranged trivial) fun resp => .ite (fun _ => ?_) fun _ => .ite (fun _ => ?_) fun _ => ?_
  · exact .pure fun _ h => ⟨by decide, h⟩
  · exact .pure fun _ h => ⟨by decide, h⟩
  · exact .pure fun _ h => ⟨readU32_lt _ _, h⟩

theorem createAndLoadAk_ranged : Triple Ranged (createAndLoadAk tpm) fun r w => r.1 < 2 ^ 32 ∧ Ranged w := by
  refine .bind (sendCommand_ranged trivial) fun resp => .ite (fun _ => ?_) fun _ => .ite (fun _ => ?_) fun _ => ?_
  · exact .pure fun _ h => ⟨by decide, h⟩
  · exact .pure fun _ h => ⟨by decide, h⟩
  · exact .pure fun _ h => ⟨readU32_lt _ _, h⟩

theorem flushHandle_ranged (hlt : handle < 2 ^ 32) : Triple Ranged (flushHandle tpm handle) fun _ => Ranged :=
  .ite (fun _ => .bind (sendCommand_ranged hlt) fun _ => .pure fun _ h => h) fun _ => .pure fun _ h => h

theorem isPersistentPresent_ranged (hlt : handle < 2 ^ 32) :
    Triple Ranged (isPersistentPresent tpm handle) fun _ => Ranged :=
  .bind (sendCommand_ranged hlt) fun _ => .pure fun _ h => h

theorem evictControl_ranged {persistentHandle : Handle} (hlt : handle < 2 ^ 32) (hpersistent : persistentHandle < 2 ^ 32) :
    Triple Ranged (evictControl tpm handle persistentHandle) fun _ => Ranged := by
  refine .bind (.bind (isPersistentPresent_ranged hpersistent) fun present => .ite (fun _ => ?_) fun _ => ?_)
    fun ready => .ite (fun _ => ?_) fun _ => .pure fun _ h => h
  · exact .bind (sendCommand_ranged ⟨hpersistent, hpersistent⟩) fun _ => .pure fun _ h => h
  · exact .pure fun _ h => h
  · exact .bind (sendCommand_ranged ⟨hlt, hpersistent⟩) fun _ => .pure fun _ h => h

theorem startedSession_lt {resp : Bytes} : ∀ session ∈ startedSession resp, session < 2 ^ 32 := by
  intro session h
  unfold startedSession at h
  by_cases hlen : resp.length < 14
  · rw [if_pos hlen] at h
    cases h
  by_cases hcode : readU32 resp 6 = 0
  · rw [if_neg hlen, if_neg (not_not.mpr hcode)] at h
    obtain ⟨-, h⟩ := Option.ite_none_left_eq_some.mp h
    obtain rfl := Option.some.inj h
    exact readU32_lt _ _
  · rw [if_neg hlen, if_pos hcode] at h
    cases h

theorem activateCredential_ranged {ekHandle : Handle} (hak : handle < 2 ^ 32) (hek : ekHandle < 2 ^ 32) (cb es : Bytes) :
    Triple Ranged (activateCredential tpm handle ekHandle cb es) fun _ => Ranged := by
  refine .bind (sendCommand_ranged trivial) fun resp => ?_
  cases hsession : startedSession resp with
  | none => exact .pure fun _ h => h
  | some session =>
    have hlt := startedSession_lt session hsession
    refine .bind (Q := fun _ => Ranged) ?_ fun _ => .bind (flushHandle_ranged hlt) fun _ => .pure fun _ h => h
    exact .bind (sendCommand_ranged hlt) fun _ => .ite (fun _ => .pure fun _ h => h) fun _ =>
      .ite (fun _ => .pure fun _ h => h) fun _ => .bind (sendCommand_ranged ⟨hak, hek, hlt⟩) fun _ => .pure fun _ h => h

theorem tpmOpen_ranged : Triple Ranged (tpmOpen tpm) fun _ => Ranged := by
  cases tpm with
  | some _ => exact .pure fun _ h => h
  | none =>
    refine .bind (Q := fun _ => Ranged) (fun w h => ?_) fun outcome => ?_
    · change Ranged (nextOutcome w).2
      unfold nextOutcome
      split <;> exact h
    · cases outcome with
      | unsent => exact .pure fun _ h => h
      | refused _ => exact .pure fun _ h => h
      | executed _ _ => exact fun _ h => h

theorem tpmClose_ranged : Triple Ranged (tpmClose tpm) fun _ => Ranged := by
  cases tpm with
  | none => exact .pure fun _ h => h
  | some _ => exact .update fun _ h => h

end Handles

section Providers
variable {p : TbsKeyProvider}

def TbsKeyProvider.InRange (p : TbsKeyProvider) : Prop := p.ekHandle < 2 ^ 32 ∧ p.akHandle < 2 ^ 32

theorem TbsKeyProvider.InRange.zero (hek : p.ekHandle = 0) (hak : p.akHandle = 0) : p.InRange :=
  ⟨hek ▸ (by decide), hak ▸ (by decide)⟩

theorem flushTransients_ranged (hp : p.InRange) : Triple Ranged p.flushTransients fun p' w => p'.InRange ∧ Ranged w :=
  .bind (flushHandle_ranged hp.2) fun _ => .bind (flushHandle_ranged hp.1) fun _ =>
    .pure fun _ h => ⟨.zero rfl rfl, h⟩

theorem close_ranged (hp : p.InRange) : Triple Ranged p.close fun _ => Ranged :=
  .bind (flushTransients_ranged hp) fun _ => tpmClose_ranged.pre fun _ h => h.2

theorem createAk_ranged (hp : p.InRange) : Triple Ranged p.createAk fun r w => r.2.InRange ∧ Ranged w := by
  refine .bind (flushTransients_ranged hp) fun p' => .assume (fun _ h => h.1) fun hp' => ?_
  refine .bind (createEk_ranged.pre fun _ h => h.2) fun ekHandle => .assume (fun _ h => h.1) fun hek => ?_
  refine .ite (fun _ => .pure fun _ h => ⟨⟨hek, hp'.2⟩, h.2⟩) fun _ => ?_
  refine .bind (createAndLoadAk_ranged.pre fun _ h => h.2) fun (akHandle, akPubArea) => .assume (fun _ h => h.1) fun hak => ?_
  refine .ite (fun _ => ?_) fun _ => .pure fun _ h => ⟨⟨hek, hak⟩, h.2⟩
  exact .bind ((flushTransients_ranged ⟨hek, hak⟩).pre fun _ h => h.2) fun _ => .pure fun _ h => h

theorem persistAk_ranged (hp : p.InRange) : Triple Ranged p.persistAk fun r w => r.2.InRange ∧ Ranged w := by
  refine .ite (fun _ => .pure fun _ h => ⟨hp, h⟩) fun _ => .bind (evictControl_ranged hp.2 (by decide)) fun _ =>
    .ite (fun _ => ?_) fun _ => .pure fun _ h => ⟨hp, h⟩
  exact .bind (flushTransients_ranged hp) fun _ => .pure fun _ h => h

theorem provider_activate_ranged (hp : p.InRange) (cb es : Bytes) :
    Triple Ranged (p.activateCredential cb es) fun _ => Ranged :=
  .ite (fun _ => .pure fun _ h => h) fun _ => activateCredential_ranged hp.2 hp.1 cb es

theorem openContext_ranged : Triple Ranged (TbsKeyProvider.openContext {}) fun r w => r.2.InRange ∧ Ranged w :=
  .bind tpmOpen_ranged fun (_, _) => .pure fun _ h => ⟨.zero rfl rfl, h⟩

end Providers

section Calls
variable {inFlight : InFlight} (sys : System)

theorem destroy_ranged (hin : ∀ p ∈ inFlight, p.InRange) : Triple Ranged (destroy inFlight) fun _ => Ranged := by
  cases inFlight with
  | none => exact .pure fun _ h => h
  | some p => exact close_ranged (hin p rfl)

/-- A step that leaves the process with these handles. -/
def StepRanged (r : EnrollStep) (w : World) : Prop := (∀ p ∈ r.inFlight, p.InRange) ∧ Ranged w

theorem rootHeraldEnrollBegin_ranged (hin : ∀ p ∈ inFlight, p.InRange) (outEnrollJson : Bool) (env : CallEnv) :
    Triple Ranged (rootHeraldEnrollBegin sys outEnrollJson env inFlight) StepRanged := by
  have hclose (status : RootHeraldResult) {p : TbsKeyProvider} (hp : p.InRange) : Triple Ranged
      (p.close >>= fun _ => Pure.pure { status, inFlight } : Tbs EnrollStep) StepRanged :=
    .bind (close_ranged hp) fun _ => .pure fun _ h => ⟨hin, h⟩
  have hdelete (status : RootHeraldResult) {p : TbsKeyProvider} (hp : p.InRange) : Triple Ranged
      (p.deleteAk >>= fun p => p.close >>= fun _ => Pure.pure { status, inFlight } : Tbs EnrollStep) StepRanged :=
    .bind (flushTransients_ranged hp) fun _ => .assume (fun _ h => h.1) fun hp => (hclose status hp).pre fun _ h => h.2
  unfold rootHeraldEnrollBegin
  refine .ite (fun _ => .pure fun _ h => ⟨hin, h⟩) fun _ => .ite (fun _ => .pure fun _ h => ⟨hin, h⟩) fun _ => ?_
  cases gatherEkEnrollData sys.sha256 env.sources with
  | none => exact .pure fun _ h => ⟨hin, h⟩
  | some ek =>
    refine .bind openContext_ranged fun (opened, p) => .assume (fun _ h => h.1) fun hp => Triple.pre (H := Ranged) ?_
      fun _ h => h.2
    refine .ite (fun _ => hclose _ hp) fun _ => .bind (createAk_ranged hp) fun (created, p) => .assume (fun _ h => h.1)
      fun hp => Triple.pre (H := Ranged) ?_ fun _ h => h.2
    refine .ite (fun _ => hclose _ hp) fun _ => .ite (fun _ => hdelete _ hp) fun _ => .ite (fun _ => hdelete _ hp) fun _ => ?_
    exact .bind (destroy_ranged hin) fun _ => .pure fun _ h => ⟨fun _ heq => Option.some.inj heq ▸ hp, h⟩

theorem rootHeraldEnrollComplete_ranged (hin : ∀ p ∈ inFlight, p.InRange) (challengeJson : Option Bytes)
    (outActivateJson allocated : Bool) :
    Triple Ranged (rootHeraldEnrollComplete sys challengeJson outActivateJson allocated inFlight) StepRanged := by
  cases challengeJson with
  | none => exact .pure fun _ h => ⟨hin, h⟩
  | some challenge =>
    refine .ite (fun _ => .pure fun _ h => ⟨hin, h⟩) fun _ => ?_
    cases inFlight with
    | none => exact .pure fun _ h => ⟨hin, h⟩
    | some p =>
      have hclose (r : EnrollStep) (hr : r.inFlight = none) {p : TbsKeyProvider} (hp : p.InRange) : Triple Ranged
          (p.close >>= fun _ => Pure.pure r) StepRanged :=
        .bind (close_ranged hp) fun _ => .pure fun _ h => ⟨fun _ hp => (by rw [hr] at hp; cases hp), h⟩
      have hp := hin p rfl
      refine .ite (fun _ => .pure fun _ h => ⟨hin, h⟩) fun _ => ?_
      refine .bind (provider_activate_ranged hp _ _) fun secret => .ite (fun _ => ?_) fun _ => ?_
      · exact .bind (flushTransients_ranged hp) fun p => .assume (fun _ h => h.1) fun hp =>
          (hclose _ rfl hp).pre fun _ h => h.2
      · refine .bind (persistAk_ranged hp) fun (persisted, p) => .assume (fun _ h => h.1) fun hp =>
          Triple.pre (H := Ranged) (.ite (fun _ => hclose _ rfl hp) fun _ => ?_) fun _ h => h.2
        exact .bind (close_ranged hp) fun _ => .ite (fun _ => .pure fun _ h => ⟨fun _ hp => (by cases hp), h⟩)
          fun _ => .pure fun _ h => ⟨fun _ hp => (by cases hp), h⟩

private theorem andAlso_ranged (opened : Bool) (tpm : TpmCommands) :
    Triple Ranged (andAlso opened (isPersistentPresent tpm kTbsAkPersistentHandle)) fun _ => Ranged :=
  .ite (fun _ => isPersistentPresent_ranged (by decide)) fun _ => .pure fun _ h => h

theorem anyAkPresent_ranged : Triple Ranged anyAkPresent fun _ => Ranged :=
  .bind openContext_ranged fun (opened, p) => .assume (fun _ h => h.1) fun hp =>
    .bind ((andAlso_ranged opened p.tpm).pre fun _ h => h.2) fun _ => .bind (close_ranged hp) fun _ => .pure fun _ h => h

theorem rootHeraldGetStatus_ranged (outStatus pcpAvailable : Bool) (env : CallEnv) :
    Triple Ranged (rootHeraldGetStatus sys outStatus pcpAvailable env) fun _ => Ranged :=
  .ite (fun _ => .pure fun _ h => h) fun _ => .bind anyAkPresent_ranged fun _ => .pure fun _ h => h

theorem selectEnrolledProvider_ranged : Triple Ranged selectEnrolledProvider fun p w =>
    (∀ provider ∈ p, provider.InRange) ∧ Ranged w := by
  refine .bind openContext_ranged fun (opened, p) => .assume (fun _ h => h.1) fun hp =>
    .bind ((andAlso_ranged opened p.tpm).pre fun _ h => h.2) fun loaded => .ite (fun _ => ?_) fun _ => ?_
  · exact .pure fun _ h => ⟨fun provider hmem => Option.some.inj hmem ▸ hp, h⟩
  · exact .bind (close_ranged hp) fun _ => .pure fun _ h => ⟨fun provider hmem => (by cases hmem), h⟩

theorem collectEvidenceFields_ranged (env : CollectEnv) (nonceB64 : Bytes) :
    Triple Ranged (collectEvidenceFields sys env nonceB64) fun _ => Ranged := by
  refine .bind selectEnrolledProvider_ranged fun provider => ?_
  cases provider with
  | none => exact .pure fun _ h => h.2
  | some provider =>
    refine .assume (fun _ h => h.1 provider rfl) fun hp => .bind (tpmOpen_ranged.pre fun _ h => h.2) fun (opened, tpmCmd) => ?_
    exact .bind tpmClose_ranged fun _ => .bind (close_ranged hp) fun _ => .pure fun _ h => h

theorem rootHeraldCollectEvidence_ranged (nonceB64 : Option Bytes) (outEvidenceJson : Bool) (env : CollectEnv) :
    Triple Ranged (rootHeraldCollectEvidence sys nonceB64 outEvidenceJson env) fun _ => Ranged := by
  cases nonceB64 with
  | none => exact .pure fun _ h => h
  | some nonceB64 =>
    refine .ite (fun _ => .pure fun _ h => h) fun _ => .bind (collectEvidenceFields_ranged sys env nonceB64) fun r => ?_
    cases r with
    | error fault => exact .pure fun _ h => h
    | ok collected =>
      exact .ite (fun _ => .pure fun _ h => h) fun _ => .ite (fun _ => .pure fun _ h => h) fun _ => .pure fun _ h => h

end Calls

section Run
variable (sys : System) {s : Process}

/-- The handles of the enrollment in flight are those of a TPM. -/
def Process.InRange (s : Process) : Prop := ∀ p ∈ s.inFlight, p.InRange

theorem Process.step_ranged (h : s.InRange) (c : Call) :
    (s.step sys c).InRange ∧ ∀ e ∈ s.sentBy sys c, e.cmd.Addressed := by
  have hnone {tpm : Tpm} {outcomes : List Outcome} : Ranged { tpm, outcomes } := fun _ hs => by cases hs
  cases c with
  | enrollBegin outEnrollJson env outcomes => exact rootHeraldEnrollBegin_ranged sys h outEnrollJson env _ hnone
  | enrollComplete challengeJson outActivateJson allocated outcomes =>
    exact rootHeraldEnrollComplete_ranged sys h challengeJson outActivateJson allocated _ hnone
  | collectEvidence nonceB64 outEvidenceJson env outcomes =>
    exact ⟨h, rootHeraldCollectEvidence_ranged sys nonceB64 outEvidenceJson env _ hnone⟩
  | getStatus outStatus pcpAvailable env outcomes =>
    exact ⟨h, rootHeraldGetStatus_ranged sys outStatus pcpAvailable env _ hnone⟩

theorem Process.trace_ranged (calls : List Call) (h : s.InRange) : ∀ e ∈ s.trace sys calls, e.cmd.Addressed := by
  induction calls generalizing s with
  | nil => exact fun _ he => by cases he
  | cons c calls ih =>
    obtain ⟨hstep, hsent⟩ := s.step_ranged sys h c
    intro e he
    rcases List.mem_append.mp he with he | he
    · exact ih hstep e he
    · exact hsent e he

end Run
end RootHerald.Windows
