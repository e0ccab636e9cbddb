import RootHerald.MacOS.ReplyMembers

/-! Attest on macOS: the nonce, signed with the device key. -/
namespace RootHerald.MacOS
open Lib

section Source

/-- The members of the reply to the attestation, as UTF8String has them. -/
structure AttestReply where
  status : Option Bytes
  authorizationCode : Option Bytes
  redirectUri : Option Bytes
  reason : Option Bytes

/-- none where one of them has no UTF8String. -/
def attestReply (members : Members) : Option AttestReply := do
  let status ← asString (members.lookup (text "status"))
  let authorizationCode ← asString (members.lookup (text "authorizationCode"))
  let redirectUri ← asString (members.lookup (text "redirectUri"))
  let reason ← asString (members.lookup (text "reason"))
  return { status, authorizationCode, redirectUri, reason }

/-- What is posted: the key that signed, and the data. -/
structure KeyAttestation where
  sessionId : Bytes
  key : SecKey
  signedNonce : Bytes
  deriving DecidableEq

structure AttestResult where
  status : RootHeraldResult
  info : AttestationInfo := {}
  posted : Option KeyAttestation := none
  deriving DecidableEq

def sessionIdSize : Nat := 64
def statusSize : Nat := 32
def authorizationCodeSize : Nat := 128
def redirectUriSize : Nat := 2048
def failureReasonSize : Nat := 512

/-- Step 7: an absent member is an empty string. -/
def attestInfo (sessionId : Bytes) (reply : AttestReply) : AttestationInfo where
  sessionId := safeCopy sessionIdSize sessionId
  status := safeCopy statusSize (reply.status.getD [])
  authorizationCode := safeCopy authorizationCodeSize (reply.authorizationCode.getD [])
  redirectUri := safeCopy redirectUriSize (reply.redirectUri.getD [])
  failureReason := safeCopy failureReasonSize (reply.reason.getD [])

/-- Steps 6 and 7, none where the call raises. -/
def postAttestation (post : KeyAttestation) (attest : HttpReply Members) : Option AttestResult :=
  match attest.dictionary with
  | none => some { status := .attestationFailed, posted := some post }
  | some members =>
    if attest.statusCode ≠ 200 then some { status := .attestationFailed, posted := some post }
    else
      (attestReply members).map fun reply =>
        { status := if reply.status = some (text "verified") then .ok else .attestationFailed
          info := attestInfo post.sessionId reply
          posted := some post }

/-- The strings are C strings; decode is initWithBase64EncodedString. -/
def rootHeraldAttest (serverUrl sessionId nonceB64 : Option Bytes) (outInfo : Bool) (sec : Security)
    (decode : Bytes → Option Bytes) (attest : HttpReply Members) : StateM Keychain (Option AttestResult) := do
  match serverUrl, sessionId, nonceB64 with
  | some _, some sessionId, some nonceB64 =>
    if ¬ outInfo then return some { status := .invalidParam }
    match decode nonceB64 with
    | none => return some { status := .invalidParam }
    | some nonce =>
      if nonce = [] then return some { status := .invalidParam }
      match ← getOrCreateDeviceKey sec with
      | none => return some { status := .internal }
      | some key =>
        if ¬ sec.signs then return some { status := .internal }
        if ¬ sec.exports then return some { status := .internal }
        return postAttestation ⟨sessionId, key, nonce⟩ attest
  | _, _, _ => return some { status := .invalidParam }

end Source

section Outcome
variable {sec : Security} {decode : Bytes → Option Bytes} {attest : HttpReply Members}

/-- The attestation is posted: the nonce decodes to something, and a key signs it and is exported. -/
def AttestPosts (chain : Keychain) (nonceB64 : Bytes) (sec : Security) (decode : Bytes → Option Bytes) : Prop :=
  (∃ nonce, decode nonceB64 = some nonce ∧ nonce ≠ []) ∧ HasKey sec chain ∧ sec.signs ∧ sec.exports

/-- It is answered with 200 and an object. -/
def AttestAnswered (chain : Keychain) (nonceB64 : Bytes) (sec : Security) (decode : Bytes → Option Bytes)
    (attest : HttpReply Members) (members : Members) : Prop :=
  AttestPosts chain nonceB64 sec decode ∧ attest.statusCode = 200 ∧ attest.dictionary = some members

/-- Where the attestation is answered, the call raises for a member that is no string, and else hands out
the texts of the reply, and OK where it is verified. -/
def AttestOutcome (chain : Keychain) (sessionId nonceB64 : Bytes) (sec : Security) (decode : Bytes → Option Bytes)
    (attest : HttpReply Members) (r : Option AttestResult) : Prop :=
  (∃ members, AttestAnswered chain nonceB64 sec decode attest members ∧ attestReply members = none ∧ r = none) ∨
    (∃ members reply result, AttestAnswered chain nonceB64 sec decode attest members ∧
      attestReply members = some reply ∧ r = some result ∧ result.info = attestInfo sessionId reply ∧
      (result.status = .ok ↔ reply.status = some (text "verified"))) ∨
    ((∀ members, ¬ AttestAnswered chain nonceB64 sec decode attest members) ∧
      ∃ result, r = some result ∧ result.info = {} ∧ result.status ≠ .ok)

variable {chain : Keychain} {sessionId nonceB64 : Bytes}

private theorem AttestOutcome.failed {status : RootHeraldResult} (h : ¬ AttestPosts chain nonceB64 sec decode)
    (hstatus : status ≠ .ok) : AttestOutcome chain sessionId nonceB64 sec decode attest (some { status := status }) :=
  .inr (.inr ⟨fun _ hanswered => h hanswered.1, _, rfl, rfl, hstatus⟩)

theorem postAttestation_outcome (key : SecKey) (nonce : Bytes) (h : AttestPosts chain nonceB64 sec decode) :
    AttestOutcome chain sessionId nonceB64 sec decode attest (postAttestation ⟨sessionId, key, nonce⟩ attest) := by
  have hfailed : RootHeraldResult.attestationFailed ≠ .ok := by decide
  obtain ⟨statusCode, dictionary⟩ := attest
  cases dictionary with
  | none =>
    refine .inr (.inr ⟨fun members hanswered => ?_, _, rfl, rfl, hfailed⟩)
    cases hanswered.2.2
  | some members =>
    unfold postAttestation
    dsimp only
    by_cases hcode : statusCode ≠ 200
    · rw [if_pos hcode]
      exact .inr (.inr ⟨fun members hanswered => hcode hanswered.2.1, _, rfl, rfl, hfailed⟩)
    rw [if_neg hcode]
    have hanswered : AttestAnswered chain nonceB64 sec decode ⟨statusCode, some members⟩ members :=
      ⟨h, not_not.mp hcode, rfl⟩
    cases hreply : attestReply members with
    | none => exact .inl ⟨members, hanswered, hreply, rfl⟩
    | some reply =>
      refine .inr (.inl ⟨members, reply, _, hanswered, hreply, rfl, rfl, ?_⟩)
      by_cases hverified : reply.status = some (text "verified")
      · exact iff_of_true (if_pos hverified) hverified
      · refine iff_of_false (fun h => hfailed ?_) hverified
        exact (if_neg hverified).symm.trans h

theorem rootHeraldAttest_outcome (chain : Keychain) (serverUrl sessionId nonceB64 : Bytes) :
    AttestOutcome chain sessionId nonceB64 sec decode attest
      ((rootHeraldAttest (some serverUrl) (some sessionId) (some nonceB64) true sec decode attest).run chain).1 := by
  have hrun : Triple (fun s => s = chain)
      (rootHeraldAttest (some serverUrl) (some sessionId) (some nonceB64) true sec decode attest)
      fun r _ => AttestOutcome chain sessionId nonceB64 sec decode attest r := by
    unfold rootHeraldAttest
    dsimp only
    rw [if_neg (not_not.mpr rfl)]
    cases hdecode : decode nonceB64 with
    | none =>
      refine .pure fun _ _ => .failed (fun ⟨⟨nonce, hnonce, _⟩, _⟩ => ?_) (by decide)
      cases hdecode.symm.trans hnonce
    | some nonce =>
      refine .ite (fun hnil => .pure fun _ _ => .failed (fun ⟨⟨nonce', hnonce, hne⟩, _⟩ => ?_) (by decide)) fun hnonce => ?_
      · obtain rfl := Option.some.inj (hdecode.symm.trans hnonce)
        exact hne hnil
      refine .bind (getOrCreateDeviceKey_tried sec chain) fun key => .assume (fun _ h => h) fun hhas => ?_
      cases key with
      | none => exact .pure fun _ _ => .failed (fun h => Bool.false_ne_true (hhas.mpr h.2.1)) (by decide)
      | some key =>
        refine .ite (fun hsigns => .pure fun _ _ => .failed (fun h => hsigns h.2.2.1) (by decide)) fun hsigns =>
          .ite (fun hexports => .pure fun _ _ => .failed (fun h => hexports h.2.2.2) (by decide)) fun hexports => ?_
        refine .pure fun _ _ => postAttestation_outcome key nonce ⟨⟨nonce, hdecode, hnonce⟩, hhas.mp rfl, ?_, ?_⟩
        · exact not_not.mp hsigns
        · exact not_not.mp hexports
  exact hrun chain rfl

end Outcome
end RootHerald.MacOS
