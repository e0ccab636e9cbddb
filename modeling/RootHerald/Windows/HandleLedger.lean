import RootHerald.Lib.Ledger
import RootHerald.Windows.Enrollment

/-! The transient objects and sessions of the Windows client: which handles it was told, and which it
handed back to be flushed. -/
namespace RootHerald.Windows
open Lib Use

section Uses

/-- The handle in a response of success to a creation. -/
def createdHandle (resp : Bytes) : Option Handle :=
  if resp.length < 14 then none else if readU32 resp 6 ≠ 0 then none else some (readU32 resp 10)

theorem createdHandle_eq_some {resp : Bytes} {handle : Handle} :
    createdHandle resp = some handle ↔ 14 ≤ resp.length ∧ readU32 resp 6 = 0 ∧ readU32 resp 10 = handle := by
  unfold createdHandle
  by_cases hlen : resp.length < 14
  · rw [if_pos hlen]
    exact iff_of_false (Option.some_ne_none _).symm fun h => by omega
  by_cases hcode : readU32 resp 6 = 0
  · rw [if_neg hlen, if_neg (not_not.mpr hcode), Option.some_inj]
    exact ⟨fun h => ⟨by omega, hcode, h⟩, fun h => h.2.2⟩
  · rw [if_neg hlen, if_pos hcode]
    exact iff_of_false (Option.some_ne_none _).symm fun h => hcode h.2.1

/-- A creation whose handle was delivered takes it, a flush releases it whatever becomes of it. -/
def Sent.use (s : Sent) : Option (Use (Context × Handle)) :=
  match s.cmd with
  | .createPrimary _ | .startAuthSession => (createdHandle s.resp).map fun handle => .taken (s.context, handle)
  | .flushContext handle => some (.released (s.context, handle))
  | _ => none

def uses (sent : List Sent) : List (Use (Context × Handle)) := sent.filterMap Sent.use

theorem uses_cons (s : Sent) (sent : List Sent) : uses (s :: sent) = s.use.toList ++ uses sent := by
  rw [uses, List.filterMap_cons]
  cases s.use <;> rfl

/-- What a handle variable of the client stands for. -/
def owed (tpm : TpmCommands) (handle : Handle) : Multiset (Context × Handle) :=
  match tpm with
  | none => 0
  | some context => if handle = 0 then 0 else {(context, handle)}

def TbsKeyProvider.owes (p : TbsKeyProvider) : Multiset (Context × Handle) := owed p.tpm p.akHandle + owed p.tpm p.ekHandle

def owedBy : InFlight → Multiset (Context × Handle)
  | none => 0
  | some p => p.owes

@[simp] theorem owed_zero (tpm : TpmCommands) : owed tpm 0 = 0 := by
  cases tpm <;> rfl

@[simp] theorem owed_none (handle : Handle) : owed none handle = 0 := rfl

theorem owed_of_ne {handle : Handle} (context : Context) (h : handle ≠ 0) : owed (some context) handle = {(context, handle)} :=
  if_neg h

end Uses

section Commands

/-- Behind the commands sent before the call and those sent in it, exactly these handles are held. -/
def Keeps (before : List Sent) (rs : Multiset (Context × Handle)) (w : World) : Prop :=
  Holding (uses (w.sent ++ before)) rs

variable {before : List Sent} {rs : Multiset (Context × Handle)} {tpm : TpmCommands}

theorem submitCommand_sent (context : Context) (cmd : Command) (sent : List Sent) :
    Triple (fun w => w.sent = sent) (submitCommand context cmd) fun _ w => w.sent = sent := by
  refine .bind (Q := fun _ w => w.sent = sent) (fun w hw => ?_) fun outcome => ?_
  · change (nextOutcome w).2.sent = sent
    unfold nextOutcome
    split <;> exact hw
  · cases outcome with
    | unsent => exact .pure fun _ h => h
    | refused _ => exact .pure fun _ h => h
    | executed arriving drawn =>
      intro w hw
      change (submit context cmd arriving drawn w).2.sent = sent
      unfold submit
      split <;> exact hw

/-- A command and its response come on top of the commands sent before. -/
theorem sendCommand_keeps (context : Context) (cmd : Command) : Triple (Keeps before rs) (sendCommand (some context) cmd)
    fun resp w => (∃ t t', Exchange context cmd t resp t') ∧
      ∃ us, Holding us rs ∧ uses (w.sent ++ before) = (Sent.use ⟨context, cmd, resp⟩).toList ++ us := by
  refine .bind (Q := fun resp w => (∃ t t', Exchange context cmd t resp t') ∧ Keeps before rs w) (fun w h => ?_)
    fun resp w h => ⟨h.1, _, h.2, uses_cons _ _⟩
  have hsent := submitCommand_sent context cmd w.sent w rfl
  exact ⟨⟨_, _, submitCommand_exchange context cmd w.tpm w rfl⟩, by rw [Keeps, hsent]; exact h⟩

/-- Of a command that neither creates nor flushes. -/
theorem sendCommand_quiet {cmd : Command} (hcmd : ∀ context resp, Sent.use ⟨context, cmd, resp⟩ = none) :
    Triple (Keeps before rs) (sendCommand tpm cmd) fun _ => Keeps before rs := by
  cases tpm with
  | none => exact .pure fun _ h => h
  | some context =>
    refine (sendCommand_keeps context cmd).post fun resp w ⟨_, us, h, huses⟩ => ?_
    rw [Keeps, huses, hcmd]
    exact h

theorem flushHandle_keeps (handle : Handle) : Triple (Keeps before (owed tpm handle + rs)) (flushHandle tpm handle)
    fun _ => Keeps before rs := by
  refine .ite (fun hne => ?_) fun hzero => .pure fun w h => ?_
  · cases tpm with
    | none =>
      refine .bind (Q := fun _ => Keeps before rs) (fun w h => ?_) fun _ => .pure fun _ h => h
      rwa [owed_none, Multiset.zero_add] at h
    | some context =>
      refine .bind (sendCommand_keeps context _) fun resp => .pure fun w ⟨_, us, h, huses⟩ => ?_
      rw [owed_of_ne context hne, Multiset.singleton_add] at h
      rw [Keeps, huses]
      exact h.release
  · rwa [not_not.mp hzero, owed_zero, Multiset.zero_add] at h

inductive Command.Creates : Command → Prop
  | primary (hierarchy : Hierarchy) : Creates (.createPrimary hierarchy)
  | session : Creates .startAuthSession

/-- A delivered handle is not 0. -/
theorem Exchange.created_ne {context : Context} {cmd : Command} {t t' : Tpm} {resp : Bytes}
    (h : Exchange context cmd t resp t') (hcmd : cmd.Creates) : ∀ handle ∈ createdHandle resp, handle ≠ 0 := by
  intro handle hmem
  obtain ⟨hlen, hcode, rfl⟩ := createdHandle_eq_some.1 hmem
  obtain ⟨drawn, params, n, hexec, -, rfl⟩ := h.delivered (not_or.mpr ⟨by omega, not_not.mpr hcode⟩)
  have hn : 14 ≤ n := by
    rw [List.length_take] at hlen
    omega
  obtain ⟨rest, ⟨hpos, hlt⟩, hparams⟩ : ∃ rest, (0 < drawn.handle ∧ drawn.handle < 2 ^ 32) ∧
      params = beBytes 4 drawn.handle ++ rest := by
    cases hcmd with
    | primary hierarchy =>
      obtain ⟨hfresh, -, hparams⟩ := execute_createPrimary hexec
      exact ⟨_, isTransient_range hfresh.1, hparams⟩
    | session =>
      obtain ⟨hsession, -, hparams⟩ := execute_startAuthSession hexec
      exact ⟨_, isSession_range hsession, hparams⟩
  rw [readU32_take (by omega), hparams, readU32_append (responseHeader_length _ _ _) hlt]
  exact Nat.ne_of_gt hpos

/-- A creation owes the handle it reads. -/
theorem create_keeps {cmd : Command} (hcmd : cmd.Creates) : Triple (Keeps before rs) (sendCommand tpm cmd) fun resp =>
        Keeps before (owed tpm ((createdHandle resp).getD 0) + rs) := by
  cases tpm with
  | none => exact .pure fun _ h => by rwa [owed_none, Multiset.zero_add]
  | some context =>
    refine (sendCommand_keeps context cmd).post fun resp w ⟨⟨t, t', hex⟩, us, h, huses⟩ => ?_
    have huse : Sent.use ⟨context, cmd, resp⟩ = (createdHandle resp).map fun handle => .taken (context, handle) := by
      cases hcmd <;> rfl
    rw [Keeps, huses, huse]
    cases hcreated : createdHandle resp with
    | none =>
      rw [Option.getD_none, owed_zero, Multiset.zero_add]
      exact h
    | some handle =>
      rw [Option.getD_some, owed_of_ne context (hex.created_ne hcmd handle hcreated), Multiset.singleton_add]
      exact h.take _

theorem createdHandle_getD (resp : Bytes) : (createdHandle resp).getD 0 =
    if resp.length < 14 then 0 else if readU32 resp 6 ≠ 0 then 0 else readU32 resp 10 := by
  unfold createdHandle
  split_ifs <;> rfl

theorem createEk_keeps : Triple (Keeps before rs) (createEk tpm) fun handle => Keeps before (owed tpm handle + rs) := by
  refine .bind (create_keeps (.primary .endorsement)) fun resp w h => ?_
  rw [createdHandle_getD] at h
  split_ifs at h ⊢
  · exact h
  · exact h
  · exact h

theorem createAndLoadAk_keeps :
    Triple (Keeps before rs) (createAndLoadAk tpm) fun r => Keeps before (owed tpm r.1 + rs) := by
  refine .bind (create_keeps (.primary .owner)) fun resp w h => ?_
  rw [createdHandle_getD] at h
  split_ifs at h ⊢
  · exact h
  · exact h
  · exact h

theorem activateInSession_keeps (akHandle ekHandle session : Handle) (cb es : Bytes) :
    Triple (Keeps before rs) (activateInSession tpm akHandle ekHandle session cb es) fun _ => Keeps before rs :=
  .bind (sendCommand_quiet fun _ _ => rfl) fun _ => .ite (fun _ => .pure fun _ h => h) fun _ =>
    .ite (fun _ => .pure fun _ h => h) fun _ => .bind (sendCommand_quiet fun _ _ => rfl) fun _ => .pure fun _ h => h

/-- The response to StartAuthSession carries no sessions, so its handle stands where it is read. -/
theorem Exchange.startedSession_eq {context : Context} {t t' : Tpm} {resp : Bytes}
    (h : Exchange context .startAuthSession t resp t') : startedSession resp = createdHandle resp := by
  have htag : 14 ≤ resp.length → readU32 resp 6 = 0 → readU16 resp 0 ≠ 0x8002 := by
    intro hlen hcode
    obtain ⟨drawn, params, n, hexec, hn, rfl⟩ := h.delivered (not_or.mpr ⟨by omega, not_not.mpr hcode⟩)
    rw [readU16_take (by omega), responseHeader, List.append_assoc]
    exact ne_of_eq_of_ne (readU16_append (a := []) rfl (by decide)) (by decide)
  unfold startedSession createdHandle
  by_cases hlen : resp.length < 14
  · rw [if_pos hlen, if_pos hlen]
  by_cases hcode : readU32 resp 6 = 0
  · simp only [if_neg hlen, if_neg (not_not.mpr hcode), if_neg (htag (by omega) hcode)]
  · rw [if_neg hlen, if_neg hlen, if_pos hcode, if_pos hcode]

theorem activateCredential_keeps (akHandle ekHandle : Handle) (cb es : Bytes) :
    Triple (Keeps before rs) (activateCredential tpm akHandle ekHandle cb es) fun _ => Keeps before rs := by
  refine .bind (Q := fun resp w => Keeps before (owed tpm ((startedSession resp).getD 0) + rs) w) ?_ fun resp => ?_
  · intro w h
    have hex := sendCommand_exchange tpm .startAuthSession w.tpm w rfl
    rw [hex.startedSession_eq]
    exact create_keeps .session w h
  · cases startedSession resp with
    | none => exact .pure fun w h => by rwa [Option.getD_none, owed_zero, Multiset.zero_add] at h
    | some session =>
      exact .bind (activateInSession_keeps akHandle ekHandle session cb es) fun _ =>
        .bind (flushHandle_keeps session) fun _ => .pure fun _ h => h

theorem isPersistentPresent_keeps (handle : Handle) :
    Triple (Keeps before rs) (isPersistentPresent tpm handle) fun _ => Keeps before rs :=
  .bind (sendCommand_quiet fun _ _ => rfl) fun _ => .pure fun _ h => h

theorem evictControl_keeps (handle persistentHandle : Handle) :
    Triple (Keeps before rs) (evictControl tpm handle persistentHandle) fun _ => Keeps before rs := by
  refine .bind (.bind (isPersistentPresent_keeps persistentHandle) fun present => .ite (fun _ => ?_) fun _ => ?_)
    fun ready => .ite (fun _ => ?_) fun _ => .pure fun _ h => h
  · exact .bind (sendCommand_quiet fun _ _ => rfl) fun _ => .pure fun _ h => h
  · exact .pure fun _ h => h
  · exact .bind (sendCommand_quiet fun _ _ => rfl) fun _ => .pure fun _ h => h

theorem tpmOpen_keeps : Triple (Keeps before rs) (tpmOpen tpm) fun _ => Keeps before rs := by
  cases tpm with
  | some _ => exact .pure fun _ h => h
  | none =>
    refine .bind (Q := fun _ => Keeps before rs) (fun w h => ?_) fun outcome => ?_
    · change Keeps before rs (nextOutcome w).2
      unfold nextOutcome
      split <;> exact h
    · cases outcome with
      | unsent => exact .pure fun _ h => h
      | refused _ => exact .pure fun _ h => h
      | executed _ _ => exact fun _ h => h

theorem tpmClose_keeps : Triple (Keeps before rs) (tpmClose tpm) fun _ => Keeps before rs := by
  cases tpm with
  | none => exact .pure fun _ h => h
  | some _ => exact .update fun _ h => h

end Commands

section Providers
variable {before : List Sent} {rs : Multiset (Context × Handle)} (p : TbsKeyProvider)

theorem flushTransients_keeps : Triple (Keeps before (p.owes + rs)) p.flushTransients fun p' w =>
    p' = { p with akHandle := 0, ekHandle := 0 } ∧ Keeps before rs w := by
  refine .bind ((flushHandle_keeps p.akHandle).pre fun w h => ?_) fun _ =>
    .bind (flushHandle_keeps p.ekHandle) fun _ => .pure fun _ h => ⟨rfl, h⟩
  rwa [TbsKeyProvider.owes, Multiset.add_assoc] at h

theorem owes_of_zero {p : TbsKeyProvider} (hak : p.akHandle = 0) (hek : p.ekHandle = 0) : p.owes = 0 := by
  rw [TbsKeyProvider.owes, hak, hek, owed_zero, Multiset.add_zero]

theorem close_keeps : Triple (Keeps before (p.owes + rs)) p.close fun _ => Keeps before rs :=
  .bind (flushTransients_keeps p) fun _ => tpmClose_keeps.pre fun _ h => h.2

/-- The flush of both handles, whatever follows. -/
private theorem flushed_keeps : Triple (Keeps before (p.owes + rs)) p.flushTransients fun p' =>
    Keeps before (p'.owes + rs) := by
  refine (flushTransients_keeps p).post fun p' w ⟨hp', h⟩ => ?_
  rwa [owes_of_zero (by rw [hp']) (by rw [hp']), Multiset.zero_add]

theorem createAk_keeps : Triple (Keeps before (p.owes + rs)) p.createAk fun r => Keeps before (r.2.owes + rs) := by
  refine .bind (flushTransients_keeps p) fun p' => .assume (fun _ h => h.1) fun hp' => ?_
  subst hp'
  refine .bind (createEk_keeps.pre fun _ h => h.2) fun ekHandle => .ite (fun hzero => .pure fun w h => ?_) fun _ => ?_
  · rw [hzero, owed_zero] at h
    rwa [owes_of_zero rfl hzero]
  · refine .bind createAndLoadAk_keeps fun (akHandle, akPubArea) => Triple.pre (H := Keeps before
      (TbsKeyProvider.owes ⟨p.tpm, ekHandle, akHandle, akPubArea⟩ + rs)) (.ite (fun _ => ?_) fun _ => ?_) fun w h => ?_
    · exact .bind (flushed_keeps _) fun _ => .pure fun _ h => h
    · exact .pure fun _ h => h
    · rwa [TbsKeyProvider.owes, Multiset.add_assoc]

theorem persistAk_keeps : Triple (Keeps before (p.owes + rs)) p.persistAk fun r => Keeps before (r.2.owes + rs) :=
  .ite (fun _ => .pure fun _ h => h) fun _ => .bind (evictControl_keeps _ _) fun _ =>
    .ite (fun _ => .bind (flushed_keeps p) fun _ => .pure fun _ h => h) fun _ => .pure fun _ h => h

theorem provider_activate_keeps (cb es : Bytes) :
    Triple (Keeps before rs) (p.activateCredential cb es) fun _ => Keeps before rs :=
  .ite (fun _ => .pure fun _ h => h) fun _ => activateCredential_keeps _ _ cb es

theorem openContext_keeps : Triple (Keeps before rs) (TbsKeyProvider.openContext {}) fun r w =>
    r.2.owes = 0 ∧ Keeps before rs w :=
  .bind tpmOpen_keeps fun (_, _) => .pure fun _ h => ⟨owes_of_zero rfl rfl, h⟩

end Providers

section Calls
variable {before : List Sent} {rs : Multiset (Context × Handle)} {inFlight : InFlight} (sys : System)

theorem destroy_keeps : Triple (Keeps before (owedBy inFlight + rs)) (destroy inFlight) fun _ => Keeps before rs := by
  cases inFlight with
  | none => exact .pure fun _ h => by rwa [owedBy, Multiset.zero_add] at h
  | some p => exact close_keeps p

theorem rootHeraldEnrollBegin_keeps (outEnrollJson : Bool) (env : CallEnv) :
    Triple (Keeps before (owedBy inFlight)) (rootHeraldEnrollBegin sys outEnrollJson env inFlight)
      fun r => Keeps before (owedBy r.inFlight) := by
  have hclose (status : RootHeraldResult) (p : TbsKeyProvider) : Triple (Keeps before (p.owes + owedBy inFlight))
      (p.close >>= fun _ => Pure.pure { status, inFlight } : Tbs EnrollStep) fun r => Keeps before (owedBy r.inFlight) :=
    .bind (close_keeps p) fun _ => .pure fun _ h => h
  have hdelete (status : RootHeraldResult) (p : TbsKeyProvider) : Triple (Keeps before (p.owes + owedBy inFlight))
      (p.deleteAk >>= fun p => p.close >>= fun _ => Pure.pure { status, inFlight } : Tbs EnrollStep)
      fun r => Keeps before (owedBy r.inFlight) :=
    .bind (flushed_keeps p) fun _ => hclose status _
  unfold rootHeraldEnrollBegin
  refine .ite (fun _ => .pure fun _ h => h) fun _ => .ite (fun _ => .pure fun _ h => h) fun _ => ?_
  cases gatherEkEnrollData sys.sha256 env.sources with
  | none => exact .pure fun _ h => h
  | some ek =>
    refine .bind (Q := fun r => Keeps before (r.2.owes + owedBy inFlight)) ?_ fun (opened, provider) =>
      .ite (fun _ => hclose _ provider) fun _ => .bind (createAk_keeps provider) fun (created, provider) =>
        .ite (fun _ => hclose _ provider) fun _ => .ite (fun _ => hdelete _ provider) fun _ =>
          .ite (fun _ => hdelete _ provider) fun _ => ?_
    · exact openContext_keeps.post fun r w ⟨howes, h⟩ => by rwa [howes, Multiset.zero_add]
    · refine .bind (destroy_keeps.pre fun w h => ?_) fun _ => .pure fun _ h => h
      rwa [Multiset.add_comm]

theorem rootHeraldEnrollComplete_keeps (challengeJson : Option Bytes) (outActivateJson allocated : Bool) :
    Triple (Keeps before (owedBy inFlight)) (rootHeraldEnrollComplete sys challengeJson outActivateJson allocated inFlight)
      fun r => Keeps before (owedBy r.inFlight) := by
  cases challengeJson with
  | none => exact .pure fun _ h => h
  | some challenge =>
    refine .ite (fun _ => .pure fun _ h => h) fun _ => ?_
    cases inFlight with
    | none => exact .pure fun _ h => h
    | some p =>
      have hclose (r : EnrollStep) (hr : r.inFlight = none) (p : TbsKeyProvider) : Triple (Keeps before (p.owes + 0))
          (p.close >>= fun _ => Pure.pure r) fun r => Keeps before (owedBy r.inFlight) :=
        .bind (close_keeps p) fun _ => .pure fun _ h => by rwa [hr]
      refine .ite (fun _ => .pure fun _ h => h) fun _ => ?_
      refine .bind (Q := fun _ => Keeps before (p.owes + 0)) ((provider_activate_keeps p _ _).pre fun w h => ?_)
        fun secret => .ite (fun _ => ?_) fun _ => ?_
      · rwa [Multiset.add_zero]
      · exact .bind (flushed_keeps p) fun p => hclose _ rfl p
      · refine .bind (persistAk_keeps p) fun (persisted, p) => .ite (fun _ => hclose _ rfl p) fun _ => ?_
        exact .bind (close_keeps p) fun _ => .ite (fun _ => .pure fun _ h => h) fun _ => .pure fun _ h => h

private theorem andAlso_keeps (opened : Bool) (tpm : TpmCommands) :
    Triple (Keeps before rs) (andAlso opened (isPersistentPresent tpm kTbsAkPersistentHandle)) fun _ => Keeps before rs :=
  .ite (fun _ => isPersistentPresent_keeps _) fun _ => .pure fun _ h => h

/-- The close of a provider that was opened only. -/
private theorem close_opened {p : TbsKeyProvider} (hp : p.owes = 0) :
    Triple (Keeps before rs) p.close fun _ => Keeps before rs :=
  (close_keeps p).pre fun _ h => by rwa [hp, Multiset.zero_add]

theorem anyAkPresent_keeps : Triple (Keeps before rs) anyAkPresent fun _ => Keeps before rs :=
  .bind openContext_keeps fun (opened, p) => .assume (fun _ h => h.1) fun hp =>
    .bind ((andAlso_keeps opened p.tpm).pre fun _ h => h.2) fun _ => .bind (close_opened hp) fun _ => .pure fun _ h => h

theorem rootHeraldGetStatus_keeps (outStatus pcpAvailable : Bool) (env : CallEnv) :
    Triple (Keeps before rs) (rootHeraldGetStatus sys outStatus pcpAvailable env) fun _ => Keeps before rs :=
  .ite (fun _ => .pure fun _ h => h) fun _ => .bind anyAkPresent_keeps fun _ => .pure fun _ h => h

theorem selectEnrolledProvider_keeps : Triple (Keeps before rs) selectEnrolledProvider fun p w =>
    (∀ provider ∈ p, provider.owes = 0) ∧ Keeps before rs w := by
  refine .bind openContext_keeps fun (opened, p) => .assume (fun _ h => h.1) fun hp =>
    .bind ((andAlso_keeps opened p.tpm).pre fun _ h => h.2) fun loaded => .ite (fun _ => ?_) fun _ => ?_
  · exact .pure fun _ h => ⟨fun provider hmem => Option.some.inj hmem ▸ hp, h⟩
  · exact .bind (close_opened hp) fun _ => .pure fun _ h => ⟨fun provider hmem => (by cases hmem), h⟩

theorem collectEvidenceFields_keeps (env : CollectEnv) (nonceB64 : Bytes) :
    Triple (Keeps before rs) (collectEvidenceFields sys env nonceB64) fun _ => Keeps before rs := by
  refine .bind selectEnrolledProvider_keeps fun provider => ?_
  cases provider with
  | none => exact .pure fun _ h => h.2
  | some provider =>
    refine .assume (fun _ h => h.1 provider rfl) fun hp => .bind (tpmOpen_keeps.pre fun _ h => h.2) fun (opened, tpmCmd) => ?_
    exact .bind tpmClose_keeps fun _ => .bind (close_opened hp) fun _ => .pure fun _ h => h

theorem rootHeraldCollectEvidence_keeps (nonceB64 : Option Bytes) (outEvidenceJson : Bool) (env : CollectEnv) :
    Triple (Keeps before rs) (rootHeraldCollectEvidence sys nonceB64 outEvidenceJson env) fun _ => Keeps before rs := by
  cases nonceB64 with
  | none => exact .pure fun _ h => h
  | some nonceB64 =>
    refine .ite (fun _ => .pure fun _ h => h) fun _ => .bind (collectEvidenceFields_keeps sys env nonceB64) fun r => ?_
    cases r with
    | error fault => exact .pure fun _ h => h
    | ok collected =>
      exact .ite (fun _ => .pure fun _ h => h) fun _ => .ite (fun _ => .pure fun _ h => h) fun _ => .pure fun _ h => h

end Calls

section Run
variable (sys : System)

/-- The commands one call hands to TBS. -/
def Process.sentBy (s : Process) : Call → List Sent
  | .enrollBegin outEnrollJson env outcomes =>
    ((rootHeraldEnrollBegin sys outEnrollJson env s.inFlight).run { tpm := s.tpm, outcomes }).2.sent
  | .enrollComplete challengeJson outActivateJson allocated outcomes =>
    ((rootHeraldEnrollComplete sys challengeJson outActivateJson allocated s.inFlight).run
      { tpm := s.tpm, outcomes }).2.sent
  | .collectEvidence nonceB64 outEvidenceJson env outcomes =>
    ((rootHeraldCollectEvidence sys nonceB64 outEvidenceJson env).run { tpm := s.tpm, outcomes }).2.sent
  | .getStatus outStatus pcpAvailable env outcomes =>
    ((rootHeraldGetStatus sys outStatus pcpAvailable env).run { tpm := s.tpm, outcomes }).2.sent

/-- The commands of a run, newest first. -/
def Process.trace (s : Process) : List Call → List Sent
  | [] => []
  | c :: calls => (s.step sys c).trace calls ++ s.sentBy sys c

/-- The commands of the destructor at the end of the process. -/
def Process.exitTrace (s : Process) (outcomes : List Outcome) : List Sent :=
  ((destroy s.inFlight).run { tpm := s.tpm, outcomes }).2.sent

variable {sys} {before : List Sent} {s : Process}

theorem Process.step_holding (h : Holding (uses before) (owedBy s.inFlight)) (c : Call) :
    Holding (uses (s.sentBy sys c ++ before)) (owedBy (s.step sys c).inFlight) := by
  cases c with
  | enrollBegin outEnrollJson env outcomes =>
    exact rootHeraldEnrollBegin_keeps sys outEnrollJson env { tpm := s.tpm, outcomes } h
  | enrollComplete challengeJson outActivateJson allocated outcomes =>
    exact rootHeraldEnrollComplete_keeps sys challengeJson outActivateJson allocated { tpm := s.tpm, outcomes } h
  | collectEvidence nonceB64 outEvidenceJson env outcomes =>
    exact rootHeraldCollectEvidence_keeps sys nonceB64 outEvidenceJson env { tpm := s.tpm, outcomes } h
  | getStatus outStatus pcpAvailable env outcomes =>
    exact rootHeraldGetStatus_keeps sys outStatus pcpAvailable env { tpm := s.tpm, outcomes } h

theorem Process.run_holding (calls : List Call) (h : Holding (uses before) (owedBy s.inFlight)) :
    Holding (uses (s.trace sys calls ++ before)) (owedBy (s.run sys calls).inFlight) := by
  induction calls generalizing s before with
  | nil => exact h
  | cons c calls ih =>
    rw [trace, List.append_assoc]
    exact ih (step_holding h c)

theorem Process.exit_holding (h : Holding (uses before) (owedBy s.inFlight)) (outcomes : List Outcome) :
    Holding (uses (s.exitTrace outcomes ++ before)) 0 :=
  destroy_keeps { tpm := s.tpm, outcomes } (by rw [Multiset.add_zero]; exact h)

/-- The handles of an enrollment in flight. -/
theorem Process.Inv.owedBy_eq {initial : Option Key} {p : TbsKeyProvider} (h : s.Inv initial) (hp : s.inFlight = some p) :
    ∃ context, p.tpm = some context ∧ owedBy s.inFlight = {(context, p.akHandle), (context, p.ekHandle)} := by
  obtain ⟨context, ek, ak, -, hholds, -⟩ := h.pending p hp
  have hne {handle : Handle} (htransient : isTransient handle = true) : handle ≠ 0 :=
    Nat.ne_of_gt (isTransient_range htransient).1
  refine ⟨context, hholds.tpm, ?_⟩
  rw [hp, owedBy, TbsKeyProvider.owes, hholds.tpm, owed_of_ne context (hne hholds.akTransient),
    owed_of_ne context (hne hholds.ekTransient)]
  rfl

/-- Between the calls of every run, for every outcome of every command: the handles delivered and not
handed to FlushContext are the EK and the AK of the enrollment in flight, or none; no flush is of a
handle that is not held, so what was created was flushed once or is held; and the destructor gives back
the rest. -/
theorem handles_are_in_flight (sys : System) (t : Tpm) (calls : List Call) :
    let s := (Process.start t).run sys calls
    let trace := (Process.start t).trace sys calls
    Sound (uses trace) ∧
      (∀ key, (uses trace).count (.taken key) = (uses trace).count (.released key) + (held (uses trace)).count key) ∧
      (s.inFlight = none → held (uses trace) = 0) ∧
      (∀ p ∈ s.inFlight, ∃ context, p.tpm = some context ∧
        held (uses trace) = {(context, p.akHandle), (context, p.ekHandle)}) ∧
      ∀ outcomes, Sound (uses (s.exitTrace outcomes ++ trace)) ∧ held (uses (s.exitTrace outcomes ++ trace)) = 0 := by
  intro s trace
  have hrun : Holding (uses trace) (owedBy s.inFlight) := by
    have h : Holding (uses ((Process.start t).trace sys calls ++ [])) (owedBy ((Process.start t).run sys calls).inFlight) :=
      Process.run_holding calls .nil
    rwa [List.append_nil] at h
  refine ⟨hrun.sound, hrun.sound.conserved, fun hnone => ?_, fun p hp => ?_, fun outcomes => ?_⟩
  · rw [hrun.held_eq, hnone]
    rfl
  · obtain ⟨context, htpm, howed⟩ := (Process.run_inv calls (Process.start_inv t)).owedBy_eq hp
    exact ⟨context, htpm, hrun.held_eq.trans howed⟩
  · have hexit := Process.exit_holding hrun outcomes
    exact ⟨hexit.sound, hexit.held_eq⟩

end Run
end RootHerald.Windows
