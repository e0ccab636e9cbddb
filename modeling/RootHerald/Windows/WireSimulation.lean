import RootHerald.Windows.ByteTransport

/-! The client over bytes, its parsers checked against each response, and the client of the model: over the
same responses they send the same commands and return the same, unless a response is cut short. -/
namespace RootHerald.Windows
open Lib Wire

section Mirrors

/-- A response that a checked parser reads past. -/
def Sent.Cut (s : Sent) : Prop :=
  match s.cmd with
  | .createPrimary .owner => CutInPublic s.resp
  | .activateCredential .. => CutBeforeSecret s.resp
  | _ => False

/-- TBS answers the commands, the oldest of them behind n others, with their responses. -/
def Answers (tbs : Wire.Tbs) (n : Nat) : List Sent → Prop
  | [] => True
  | s :: new => tbs (n + new.length) s.cmd.bytes = s.resp ∧ Answers tbs n new

/-- The bytes of the commands. -/
def wired (new : List Sent) : Wire.Sent := new.map fun s => s.cmd.bytes

/-- The program over bytes read past a response, or it ended with this result behind these commands. -/
def Ends {β : Type} (new : List Sent) (b : β) (sent : Wire.Sent) (z : Checked (β × Wire.Sent)) : Prop :=
  ((∃ s ∈ new, s.Cut) → ∀ r, z ≠ .ok r) ∧ ((∀ s ∈ new, ¬ s.Cut) → z = .ok (b, wired new ++ sent))

/-- Over a TBS that answers as the TPM of the model did, the program over bytes sends the same commands and
ends with the same result, unless one of the responses is cut. -/
def Mirrors {α β : Type} (e : α → β) (x : Tbs α) (y : Wire.Tbs → Submitting β) : Prop :=
  ∀ w, ∃ new, (x w).2.sent = new ++ w.sent ∧
    ∀ tbs sent, Answers tbs sent.length new → Ends new (e (x w).1) sent (y tbs sent)

variable {α β γ δ : Type} {e : α → β} {e' : γ → δ}

theorem Answers.append {tbs : Wire.Tbs} {n : Nat} {new old : List Sent} :
    Answers tbs n (new ++ old) ↔ Answers tbs (n + old.length) new ∧ Answers tbs n old := by
  induction new with
  | nil => simp [Answers]
  | cons s new ih =>
    rw [List.cons_append, Answers, Answers, ih, List.length_append, and_assoc, Nat.add_assoc, Nat.add_comm old.length]

theorem Ends.append {new old : List Sent} {b : β} {d : δ} {sent : Wire.Sent} {z : Checked (β × Wire.Sent)}
    {next : β × Wire.Sent → Checked (δ × Wire.Sent)} (hz : Ends old b sent z)
    (hnext : Ends new d (wired old ++ sent) (next (b, wired old ++ sent))) : Ends (new ++ old) d sent (z >>= next) := by
  by_cases hold : ∃ s ∈ old, s.Cut
  · refine ⟨fun _ r hr => ?_, fun hall => ?_⟩
    · obtain ⟨r', hr', -⟩ := bind_eq_ok hr
      exact hz.1 hold r' hr'
    · obtain ⟨s, hs, h⟩ := hold
      exact absurd h (hall s (List.mem_append_right new hs))
  · rw [hz.2 fun s hs h => hold ⟨s, hs, h⟩, ok_bind]
    refine ⟨fun ⟨s, hs, h⟩ => ?_, fun hall => ?_⟩
    · rcases List.mem_append.mp hs with hs | hs
      · exact hnext.1 ⟨s, hs, h⟩
      · exact absurd ⟨s, hs, h⟩ hold
    · rw [hnext.2 fun s hs => hall s (List.mem_append_left old hs), wired, wired, wired, List.map_append, List.append_assoc]

theorem Mirrors.pure (a : α) : Mirrors e (Pure.pure a) fun _ => Pure.pure (e a) :=
  fun _ => ⟨[], rfl, fun _ _ _ => ⟨fun ⟨_, hs, _⟩ => (by cases hs), fun _ => rfl⟩⟩

theorem Mirrors.bind {x : Tbs α} {y : Wire.Tbs → Submitting β} {f : α → Tbs γ} {g : β → Wire.Tbs → Submitting δ}
    (hx : Mirrors e x y) (hf : ∀ a, Mirrors e' (f a) (g (e a))) :
    Mirrors e' (x >>= f) fun tbs => y tbs >>= fun b => g b tbs := by
  intro w
  obtain ⟨old, hold, hx⟩ := hx w
  obtain ⟨new, hnew, hf⟩ := hf (x w).1 (x w).2
  refine ⟨new ++ old, by rw [List.append_assoc, ← hold, ← hnew]; rfl, fun tbs sent hanswers => ?_⟩
  obtain ⟨hanswers', hanswers⟩ := Answers.append.1 hanswers
  refine (hx tbs sent hanswers).append (hf tbs (wired old ++ sent) ?_)
  rwa [List.length_append, wired, List.length_map, Nat.add_comm]

theorem Mirrors.ite {c : Prop} [Decidable c] {x x' : Tbs α} {y y' : Wire.Tbs → Submitting β} (hx : c → Mirrors e x y)
    (hx' : ¬ c → Mirrors e x' y') : Mirrors e (if c then x else x') fun tbs => if c then y tbs else y' tbs := by
  split_ifs with h
  · exact hx h
  · exact hx' h

/-- A command, and a parser that reads every response that is not cut. -/
theorem Mirrors.command {parse : Bytes → α} {parse' : Bytes → Checked β} (context : Context) (cmd : Command)
    (hcut : ∀ resp, Sent.Cut ⟨context, cmd, resp⟩ → ∀ r, parse' resp ≠ .ok r)
    (hwhole : ∀ resp, ¬ Sent.Cut ⟨context, cmd, resp⟩ → parse' resp = .ok (e (parse resp))) :
    Mirrors e (sendCommand (some context) cmd >>= fun resp => Pure.pure (parse resp))
      fun tbs => Wire.sendCommand (some tbs) cmd.bytes >>= fun resp => liftM (parse' resp) := by
  intro w
  refine ⟨[⟨context, cmd, (submitCommand context cmd w).1⟩], ?_, fun tbs sent hanswers => ?_⟩
  · change _ :: (submitCommand context cmd w).2.sent = _
    rw [show (submitCommand context cmd w).2.sent = w.sent from submitCommand_sent context cmd w.sent w rfl]
    rfl
  · have hresp : tbs sent.length cmd.bytes = (submitCommand context cmd w).1 := hanswers.1
    have hrun : (Wire.sendCommand (some tbs) cmd.bytes >>= fun resp => (liftM (parse' resp) : Submitting β)) sent =
        (parse' (submitCommand context cmd w).1).map fun b => (b, cmd.bytes :: sent) := by
      rw [sendCommand_bind, lift_run, hresp]
    change Ends _ _ sent ((Wire.sendCommand (some tbs) cmd.bytes >>= fun resp => (liftM (parse' resp) : Submitting β)) sent)
    rw [hrun]
    refine ⟨fun ⟨s, hs, h⟩ r hr => ?_, fun hall => ?_⟩
    · obtain rfl := List.mem_singleton.mp hs
      cases hparse : parse' (submitCommand context cmd w).1 with
      | error fault =>
        rw [hparse] at hr
        cases hr
      | ok b => exact hcut _ h b hparse
    · rw [hwhole _ (hall _ (List.mem_singleton_self _))]
      rfl

end Mirrors

section Parsers
variable {resp : Bytes}

theorem createdEk_eq (resp : Bytes) : createdEk resp = .ok ((createdHandle resp).getD 0) := by
  rw [createdHandle_getD]
  unfold createdEk
  apply ite_ok (fun _ => rfl)
  intro hlen
  rw [readU32_ok (by omega), ok_bind]
  apply ite_ok (fun _ => rfl)
  intro _
  exact readU32_ok (by omega)

/-- The handle and the public area in a response to CreatePrimary. -/
def createdKey (resp : Bytes) : Handle × Bytes :=
  if resp.length < 14 then (0, []) else if readU32 resp 6 ≠ 0 then (0, [])
  else (readU32 resp 10, createdPublicArea resp)

theorem createdAk_eq (h : ¬ CutInPublic resp) :
    createdAk (some []) resp = .ok ((createdKey resp).1, some (createdKey resp).2) := by
  unfold createdKey
  by_cases hlen : resp.length < 14
  · rw [createdAk, if_pos hlen, if_pos hlen]
    rfl
  by_cases hcode : readU32 resp 6 = 0
  · rw [createdAk, if_neg hlen, readU32_ok (by omega), ok_bind, if_neg (not_not.mpr hcode), readU32_ok (by omega), ok_bind,
      if_neg hlen, if_neg (not_not.mpr hcode), createdPublicArea]
    by_cases hlong : 18 < resp.length
    · rw [if_pos ⟨rfl, hlong⟩, if_pos hlong, readU32_ok (by omega), ok_bind]
      dsimp only
      by_cases hparam : 0 < readU32 resp 14 ∧ (18 + readU32 resp 14) % 2 ^ 32 ≤ resp.length
      swap
      · rw [if_neg hparam, if_neg hparam]
        rfl
      rw [if_pos hparam, if_pos hparam]
      have hsize : 20 ≤ resp.length := by
        by_contra hshort
        have hcut : resp.length = 19 := by omega
        exact h ⟨hcut, hcode, hparam.1, hcut ▸ hparam.2⟩
      rw [readU16_ok hsize, ok_bind]
      by_cases hpub : 0 < readU16 resp 18 ∧ 20 + readU16 resp 18 ≤ resp.length
      · rw [if_pos hpub, if_pos hpub, readSlice_ok (by omega), ok_bind]
        rfl
      · rw [if_neg hpub, if_neg hpub]
        rfl
    · rw [if_neg fun hwanted => hlong hwanted.2, if_neg hlong]
      rfl
  · rw [createdAk, if_neg hlen, readU32_ok (by omega), ok_bind, if_pos hcode, if_neg hlen, if_pos hcode]
    rfl

end Parsers

section Operations
variable (context : Context)

/-- A command whose parser reads every response. -/
private theorem command_total {α : Type} {parse : Bytes → α} {parse' : Bytes → Checked α} (cmd : Command)
    (hcut : ∀ resp, ¬ Sent.Cut ⟨context, cmd, resp⟩) (hparse : ∀ resp, parse' resp = .ok (parse resp)) :
    Mirrors id (sendCommand (some context) cmd >>= fun resp => Pure.pure (parse resp))
      fun tbs => Wire.sendCommand (some tbs) cmd.bytes >>= fun resp => liftM (parse' resp) :=
  .command context cmd (fun resp h => absurd h (hcut resp)) fun resp _ => hparse resp

theorem createEk_mirrors : Mirrors id (createEk (some context)) fun tbs => Wire.createEk (some tbs) := by
  have hparse : createEk (some context) = sendCommand (some context) (.createPrimary .endorsement) >>= fun resp =>
      Pure.pure ((createdHandle resp).getD 0) := by
    unfold createEk
    congr 1
    funext resp
    rw [createdHandle_getD]
    split_ifs <;> rfl
  rw [hparse]
  exact command_total context _ (fun _ h => h) createdEk_eq

theorem createAndLoadAk_mirrors : Mirrors (fun r => (r.1, some r.2)) (createAndLoadAk (some context))
    fun tbs => Wire.createAndLoadAk (some tbs) (some []) := by
  have hparse : createAndLoadAk (some context) = sendCommand (some context) (.createPrimary .owner) >>= fun resp =>
      Pure.pure (createdKey resp) := by
    unfold createAndLoadAk createdKey
    congr 1
    funext resp
    split_ifs <;> rfl
  rw [hparse]
  exact .command context _ (fun resp h r hr => (createdAk_ok_iff (some [])).mp ⟨r, hr⟩ rfl h) fun resp => createdAk_eq

theorem flushContext_mirrors (handle : Handle) :
    Mirrors id (flushContext (some context) handle) fun tbs => Wire.flushContext (some tbs) handle :=
  command_total context (.flushContext handle) (fun _ h => h) fun _ => show Except.ok () = Except.ok () from rfl

theorem isPersistentPresent_mirrors (handle : Handle) :
    Mirrors id (isPersistentPresent (some context) handle) fun tbs => Wire.isPersistentPresent (some tbs) handle :=
  command_total context (.readPublic handle) (fun _ h => h) succeeded_eq

/-- An EvictControl and whether it succeeded. -/
private theorem eviction_mirrors (objectHandle persistentHandle : Handle) :
    Mirrors id (sendCommand (some context) (.evictControl objectHandle persistentHandle) >>= fun resp =>
        Pure.pure (succeeded resp))
      fun tbs => Wire.sendCommand (some tbs) (evictControlCommand objectHandle persistentHandle) >>= fun resp =>
        liftM (Wire.succeeded resp) :=
  command_total context (.evictControl objectHandle persistentHandle) (fun _ h => h) succeeded_eq

theorem evictControl_mirrors (transientHandle persistentHandle : Handle) :
    Mirrors id (evictControl (some context) transientHandle persistentHandle)
      fun tbs => Wire.evictControl (some tbs) transientHandle persistentHandle := by
  refine .bind (e := id) ?_ fun ready => .ite (fun _ => eviction_mirrors context _ _) fun _ => .pure false
  exact .bind (isPersistentPresent_mirrors context persistentHandle) fun present =>
    .ite (fun _ => eviction_mirrors context _ _) fun _ => .pure true

variable (akHandle ekHandle : Handle) (credentialBlob encryptedSecret : Bytes)

private theorem activateInSession_mirrors (session : Handle) :
    Mirrors id (activateInSession (some context) akHandle ekHandle session credentialBlob encryptedSecret)
      fun tbs => Wire.activateInSession (some tbs) (UInt32.ofNat akHandle) (UInt32.ofNat ekHandle) session credentialBlob
        encryptedSecret := by
  have hmodel : activateInSession (some context) akHandle ekHandle session credentialBlob encryptedSecret =
      (sendCommand (some context) (.policySecret session) >>= fun resp => Pure.pure (succeeded resp)) >>= fun satisfied =>
        if satisfied then
          sendCommand (some context) (.activateCredential akHandle ekHandle session credentialBlob encryptedSecret) >>=
            fun resp => Pure.pure (recoveredSecret resp)
        else Pure.pure [] := by
    unfold activateInSession succeeded
    rw [bind_assoc]
    congr 1
    funext resp
    rw [pure_bind]
    split_ifs <;> simp_all
  have hwire (tbs : Wire.Tbs) : Wire.activateInSession (some tbs) (UInt32.ofNat akHandle) (UInt32.ofNat ekHandle) session
      credentialBlob encryptedSecret =
      (Wire.sendCommand (some tbs) (policySecretCommand session) >>= fun resp => liftM (Wire.succeeded resp)) >>= fun satisfied =>
        if satisfied then
          Wire.sendCommand (some tbs) (activateCredentialCommand (UInt32.ofNat akHandle) (UInt32.ofNat ekHandle) session
            credentialBlob encryptedSecret) >>= fun resp => liftM (Wire.recoveredSecret resp)
        else Pure.pure [] := by
    rw [bind_assoc]
    rfl
  simp only [hmodel, hwire]
  refine .bind (e := id) (command_total context (.policySecret session) (fun _ h => h) succeeded_eq) fun satisfied =>
    .ite (fun _ => ?_) fun _ => .pure []
  refine .command context (.activateCredential akHandle ekHandle session credentialBlob encryptedSecret)
    (fun resp h r hr => ?_) fun resp => recoveredSecret_eq
  rw [recoveredSecret_cut h] at hr
  cases hr

/-- Behind the response to StartAuthSession. -/
private def activateStarted (tpm : TpmCommands) : Option Handle → Tbs Bytes
  | none => Pure.pure []
  | some session => activateInSession tpm akHandle ekHandle session credentialBlob encryptedSecret >>= fun secret =>
      flushHandle tpm session >>= fun _ => Pure.pure secret

private def activateStartedWire (tpm : Wire.TpmCommands) : Option Nat → Wire.Submitting Bytes
  | none => Pure.pure []
  | some session => Wire.activateInSession tpm (UInt32.ofNat akHandle) (UInt32.ofNat ekHandle) session credentialBlob
      encryptedSecret >>= fun secret => Wire.flushHandle tpm session >>= fun _ => Pure.pure secret

theorem activateCredential_mirrors :
    Mirrors id (activateCredential (some context) akHandle ekHandle credentialBlob encryptedSecret)
      fun tbs => Wire.activateCredential (some tbs) (UInt32.ofNat akHandle) (UInt32.ofNat ekHandle) credentialBlob
        encryptedSecret := by
  have hmodel : activateCredential (some context) akHandle ekHandle credentialBlob encryptedSecret =
      (sendCommand (some context) .startAuthSession >>= fun resp => Pure.pure (startedSession resp)) >>=
        activateStarted akHandle ekHandle credentialBlob encryptedSecret (some context) := rfl
  have hwire (tbs : Wire.Tbs) : Wire.activateCredential (some tbs) (UInt32.ofNat akHandle) (UInt32.ofNat ekHandle)
      credentialBlob encryptedSecret =
      (Wire.sendCommand (some tbs) startAuthSessionCommand >>= fun resp => liftM (Wire.startedSession resp)) >>=
        activateStartedWire akHandle ekHandle credentialBlob encryptedSecret (some tbs) := by
    rw [bind_assoc]
    rfl
  simp only [hmodel, hwire]
  refine .bind (e := id) (command_total context .startAuthSession (fun _ h => h) startedSession_eq) fun started => ?_
  cases started with
  | none => exact .pure []
  | some session =>
    refine .bind (activateInSession_mirrors context akHandle ekHandle credentialBlob encryptedSecret session) fun secret =>
      .bind (e := id) ?_ fun _ => .pure secret
    exact .ite (fun _ => flushContext_mirrors context session) fun _ => .pure ()

end Operations

section Clients

/-- A call of an open TpmCommands. -/
inductive TpmCall where
  | createEk
  | createAndLoadAk
  | flushContext (handle : Handle)
  | activateCredential (akHandle ekHandle : Handle) (credentialBlob encryptedSecret : Bytes)
  | isPersistentPresent (persistentHandle : Handle)
  | evictControl (transientHandle persistentHandle : Handle)

inductive TpmAnswer where
  | handle (handle : Handle)
  | key (handle : Handle) (publicArea : Bytes)
  | flushed
  | secret (secret : Bytes)
  | found (present : Bool)
  deriving DecidableEq

def TpmCall.run (context : Context) : TpmCall → Tbs TpmAnswer
  | .createEk => TpmAnswer.handle <$> Windows.createEk (some context)
  | .createAndLoadAk => (fun (handle, publicArea) => .key handle publicArea) <$> Windows.createAndLoadAk (some context)
  | .flushContext handle => (fun _ => .flushed) <$> Windows.flushContext (some context) handle
  | .activateCredential akHandle ekHandle credentialBlob encryptedSecret =>
    TpmAnswer.secret <$> Windows.activateCredential (some context) akHandle ekHandle credentialBlob encryptedSecret
  | .isPersistentPresent persistentHandle => TpmAnswer.found <$> Windows.isPersistentPresent (some context) persistentHandle
  | .evictControl transientHandle persistentHandle =>
    TpmAnswer.found <$> Windows.evictControl (some context) transientHandle persistentHandle

/-- The same call over bytes; the public area goes into an empty vector. -/
def TpmCall.wire (tbs : Wire.Tbs) : TpmCall → Submitting TpmAnswer
  | .createEk => TpmAnswer.handle <$> Wire.createEk (some tbs)
  | .createAndLoadAk => (fun (handle, outPublicKey) => .key handle (outPublicKey.getD [])) <$> Wire.createAndLoadAk (some tbs) (some [])
  | .flushContext handle => (fun _ => .flushed) <$> Wire.flushContext (some tbs) handle
  | .activateCredential akHandle ekHandle credentialBlob encryptedSecret =>
    TpmAnswer.secret <$> Wire.activateCredential (some tbs) (UInt32.ofNat akHandle) (UInt32.ofNat ekHandle) credentialBlob
      encryptedSecret
  | .isPersistentPresent persistentHandle => TpmAnswer.found <$> Wire.isPersistentPresent (some tbs) persistentHandle
  | .evictControl transientHandle persistentHandle =>
    TpmAnswer.found <$> Wire.evictControl (some tbs) transientHandle persistentHandle

/-- A client that chooses each call by the answers so far, newest first, and may stop. -/
abbrev TpmClient := List TpmAnswer → Option TpmCall

/-- Its next n calls. -/
def TpmClient.run (next : TpmClient) (context : Context) : Nat → List TpmAnswer → Tbs (List TpmAnswer)
  | 0, answers => return answers
  | n + 1, answers =>
    match next answers with
    | none => return answers
    | some call => call.run context >>= fun answer => TpmClient.run next context n (answer :: answers)

def TpmClient.wire (next : TpmClient) (tbs : Wire.Tbs) : Nat → List TpmAnswer → Submitting (List TpmAnswer)
  | 0, answers => return answers
  | n + 1, answers =>
    match next answers with
    | none => return answers
    | some call => call.wire tbs >>= fun answer => TpmClient.wire next tbs n (answer :: answers)

variable {α β γ δ : Type}

theorem Mirrors.map {e : α → β} {e' : γ → δ} {x : Tbs α} {y : Wire.Tbs → Submitting β} (hx : Mirrors e x y) {f : α → γ}
    {g : β → δ} (h : ∀ a, g (e a) = e' (f a)) : Mirrors e' (f <$> x) fun tbs => g <$> y tbs := by
  have hbind : Mirrors e' (x >>= fun a => Pure.pure (f a)) fun tbs => y tbs >>= fun b => Pure.pure (g b) := by
    refine hx.bind fun a => ?_
    rw [h]
    exact .pure (f a)
  simpa only [map_eq_pure_bind] using hbind

theorem TpmCall.mirrors (context : Context) (call : TpmCall) : Mirrors id (call.run context) fun tbs => call.wire tbs := by
  cases call with
  | createEk => exact (createEk_mirrors context).map (g := TpmAnswer.handle) fun _ => rfl
  | createAndLoadAk =>
    exact (createAndLoadAk_mirrors context).map (f := fun r => TpmAnswer.key r.1 r.2)
      (g := fun r => TpmAnswer.key r.1 (r.2.getD [])) fun _ => rfl
  | flushContext handle => exact (flushContext_mirrors context handle).map (g := fun _ => TpmAnswer.flushed) fun _ => rfl
  | activateCredential akHandle ekHandle credentialBlob encryptedSecret =>
    exact (activateCredential_mirrors context akHandle ekHandle credentialBlob encryptedSecret).map (g := TpmAnswer.secret)
      fun _ => rfl
  | isPersistentPresent persistentHandle => exact (isPersistentPresent_mirrors context persistentHandle).map (g := TpmAnswer.found) fun _ => rfl
  | evictControl transientHandle persistentHandle =>
    exact (evictControl_mirrors context transientHandle persistentHandle).map (g := TpmAnswer.found) fun _ => rfl

theorem TpmClient.mirrors (next : TpmClient) (context : Context) (n : Nat) (answers : List TpmAnswer) :
    Mirrors id (next.run context n answers) fun tbs => next.wire tbs n answers := by
  induction n generalizing answers with
  | zero => exact .pure answers
  | succ n ih =>
    simp only [TpmClient.run, TpmClient.wire]
    cases next answers with
    | none => exact .pure answers
    | some call => exact (call.mirrors context).bind fun answer => ih (answer :: answers)

/-- The TBS that answers by the number of the command. -/
def replaying (new : List Sent) : Wire.Tbs := replay fun i => ((new.reverse[i]?).map Sent.resp).getD []

/-- Behind further responses the earlier ones are answered as they were. -/
private theorem replaying_append (front new : List Sent) : Answers (replaying (front ++ new)) 0 new := by
  induction new generalizing front with
  | nil => trivial
  | cons s new ih =>
    have hrest := ih (front ++ [s])
    rw [List.append_assoc, List.singleton_append] at hrest
    refine ⟨?_, hrest⟩
    simp [replaying, replay]

theorem answers_replaying (new : List Sent) : Answers (replaying new) 0 new := replaying_append [] new

/-- For every client that chooses its calls by their answers, whatever the TPM does: over a TBS with the same
responses the client over bytes sends the bytes of the same commands and gets the same answers, or, exactly if
one of the responses is cut where a parser does not look, it reads past one. -/
theorem wire_client_agrees (next : TpmClient) (context : Context) (n : Nat) (w : World) :
    ∃ new, (next.run context n [] w).2.sent = new ++ w.sent ∧ (∃ tbs, Answers tbs 0 new) ∧
      ∀ tbs, Answers tbs 0 new → Ends new (next.run context n [] w).1 [] (next.wire tbs n [] []) := by
  obtain ⟨new, hnew, hends⟩ := next.mirrors context n [] w
  exact ⟨new, hnew, ⟨_, answers_replaying new⟩, fun tbs hanswers => hends tbs [] hanswers⟩

end Clients
end RootHerald.Windows
