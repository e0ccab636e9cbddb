import RootHerald.Windows.WireReads

/-! The calls of the client as functions of the responses TBS gives. -/
namespace RootHerald.Windows.Wire
open Lib

section Submitting
variable {α β : Type} {tbs : Tbs} {sent : Sent}

theorem sendCommand_bind (cmd : Bytes) (f : Bytes → Submitting β) :
    (sendCommand (some tbs) cmd >>= f) sent = f (tbs sent.length cmd) (cmd :: sent) := rfl

theorem lift_bind (x : Checked α) (f : α → Submitting β) :
    ((liftM x : Submitting α) >>= f) sent = x >>= fun a => f a sent := by
  cases x <;> rfl

theorem lift_run (x : Checked α) : (liftM x : Submitting α) sent = x.map fun a => (a, sent) := by
  cases x <;> rfl

theorem pcrRead_run (pcrIndex : Nat) : pcrRead (some tbs) pcrIndex sent =
    .ok (Windows.pcrReadValue (tbs sent.length (pcrReadCommand pcrIndex)), pcrReadCommand pcrIndex :: sent) := by
  unfold pcrRead
  rw [sendCommand_bind, lift_run, pcrReadValue_eq]
  rfl

theorem quote_run (akHandle : UInt32) (nonce : Bytes) (pcrIndices : List Nat) (outSignature : Bytes) :
    quote (some tbs) akHandle nonce pcrIndices outSignature sent =
      .ok ((quoteResult (tbs sent.length (quoteCommand akHandle nonce pcrIndices))).map fun q =>
        (q.1, if q.2 = [] then outSignature else q.2), quoteCommand akHandle nonce pcrIndices :: sent) := by
  unfold quote
  rw [sendCommand_bind, lift_run, quoteOutputs_eq]
  rfl

theorem createAndLoadAk_run (outPublicKey : Option Bytes) : createAndLoadAk (some tbs) outPublicKey sent =
    (createdAk outPublicKey (tbs sent.length (createPrimaryCommand .owner))).map fun r =>
      (r, createPrimaryCommand .owner :: sent) := by
  unfold createAndLoadAk
  rw [sendCommand_bind, lift_run]

theorem createEk_run : createEk (some tbs) sent =
    (createdEk (tbs sent.length (createPrimaryCommand .endorsement))).map fun handle =>
      (handle, createPrimaryCommand .endorsement :: sent) := by
  unfold createEk
  rw [sendCommand_bind, lift_run]

end Submitting

section Activation
variable {tbs : Tbs} {akHandle ekHandle : UInt32} {credentialBlob encryptedSecret : Bytes} {sessionHandle : Nat}

/-- The session is flushed behind the other commands. -/
def flushedBehind (sessionHandle : Nat) (sent : Sent) : Sent :=
  if sessionHandle ≠ 0 then flushContextCommand sessionHandle :: sent else sent

private theorem flushHandle_run (sent : Sent) :
    flushHandle (some tbs) sessionHandle sent = .ok ((), flushedBehind sessionHandle sent) := by
  unfold flushHandle flushedBehind
  split <;> rfl

/-- Behind step 1 the commands of the session are sent, and it is flushed. -/
private theorem activateCredential_started
    (hstarted : Windows.startedSession (tbs 0 startAuthSessionCommand) = some sessionHandle) :
    activateCredential (some tbs) akHandle ekHandle credentialBlob encryptedSecret [] =
      (activateInSession (some tbs) akHandle ekHandle sessionHandle credentialBlob encryptedSecret
        [startAuthSessionCommand]).map fun r => (r.1, flushedBehind sessionHandle r.2) := by
  unfold activateCredential
  rw [sendCommand_bind, lift_bind, startedSession_eq, ok_bind, List.length_nil, hstarted]
  change ((activateInSession (some tbs) akHandle ekHandle sessionHandle credentialBlob encryptedSecret
    [startAuthSessionCommand]) >>= fun r => (flushHandle (some tbs) sessionHandle >>= fun _ => pure r.1) r.2) = _
  cases activateInSession (some tbs) akHandle ekHandle sessionHandle credentialBlob encryptedSecret
    [startAuthSessionCommand] with
  | error e => rfl
  | ok r =>
    rw [ok_bind]
    change (flushHandle (some tbs) sessionHandle r.2 >>= fun u => (pure r.1 : Submitting Bytes) u.2) = _
    rw [flushHandle_run]
    rfl

theorem activateCredential_unstarted (h : Windows.startedSession (tbs 0 startAuthSessionCommand) = none) :
    activateCredential (some tbs) akHandle ekHandle credentialBlob encryptedSecret [] =
      .ok ([], [startAuthSessionCommand]) := by
  unfold activateCredential
  rw [sendCommand_bind, lift_bind, startedSession_eq, ok_bind, List.length_nil, h]
  rfl

theorem activateCredential_refused
    (hstarted : Windows.startedSession (tbs 0 startAuthSessionCommand) = some sessionHandle)
    (hrefused : Windows.succeeded (tbs 1 (policySecretCommand sessionHandle)) = false) :
    activateCredential (some tbs) akHandle ekHandle credentialBlob encryptedSecret [] =
      .ok ([], flushedBehind sessionHandle [policySecretCommand sessionHandle, startAuthSessionCommand]) := by
  rw [activateCredential_started hstarted]
  unfold activateInSession
  rw [sendCommand_bind, lift_bind, succeeded_eq, ok_bind, List.length_singleton, hrefused]
  rfl

/-- The secret is the one of the third response. -/
theorem activateCredential_satisfied
    (hstarted : Windows.startedSession (tbs 0 startAuthSessionCommand) = some sessionHandle)
    (hsatisfied : Windows.succeeded (tbs 1 (policySecretCommand sessionHandle)) = true) :
    activateCredential (some tbs) akHandle ekHandle credentialBlob encryptedSecret [] =
      (recoveredSecret (tbs 2 (activateCredentialCommand akHandle ekHandle sessionHandle credentialBlob
        encryptedSecret))).map fun secret => (secret, flushedBehind sessionHandle
          [activateCredentialCommand akHandle ekHandle sessionHandle credentialBlob encryptedSecret,
            policySecretCommand sessionHandle, startAuthSessionCommand]) := by
  rw [activateCredential_started hstarted]
  unfold activateInSession
  rw [sendCommand_bind, lift_bind, succeeded_eq, ok_bind, List.length_singleton, hsatisfied, if_pos rfl,
    sendCommand_bind, lift_run]
  cases recoveredSecret (tbs 2 (activateCredentialCommand akHandle ekHandle sessionHandle credentialBlob
    encryptedSecret)) <;> rfl

end Activation
end RootHerald.Windows.Wire
