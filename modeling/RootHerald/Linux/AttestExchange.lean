import RootHerald.Linux.AttestOutcome
import RootHerald.Linux.AttestedLog
import RootHerald.Linux.EnrollExchange

/-! Attest over HTTP: the same call with the body it posts and a server that answers it. -/
namespace RootHerald.Linux
open Lib Json

section Source

def attestPath : Bytes := text "/api/v1/attest"

/-- Step 9, with the reply. -/
def answerAttest (tpm : TpmContext) (sessionId : Bytes) (quote : Option QuoteCall) (reply : AttestReply) :
    Online (Checked AttestResult) := do
  if reply.httpCode ≠ 200 then
    offline (tpmClose tpm)
    return .ok { status := .attestationFailed, quote, posted := true }
  let info := ⟨sessionId.take 63, reply.status, reply.authorizationCode, reply.redirectUri, reply.reason⟩
  offline (tpmClose tpm)
  if reply.status = text "verified" then return .ok { status := .ok, info, quote, posted := true }
  return .ok { status := .attestationFailed, info, quote, posted := true }

/-- Steps 8 and 9, with the body that was built. -/
def postAttestation (server : Server) (url sessionId : Bytes) (tpm : TpmContext) (quote : Option QuoteCall)
    (body : Checked Bytes) : Online (Checked AttestResult) := do
  match body with
  | .error fault => return .error fault
  | .ok body =>
    let (httpCode, received) ← httpPostJson server url body
    answerAttest tpm sessionId quote (attestReply httpCode received)

/-- Steps 2 to 9. -/
def attestNonceOnline (e : Evidence) (server : Server) (serverUrl sessionId nonce : Bytes) (nonceLen : Nat) :
    Online (Checked AttestResult) := do
  match ← offline tpmOpen with
  | none => return .ok { status := .noTpm }
  | some tpm =>
    let (created, tpm) ← offline (tpmCreateAk tpm)
    if ¬ created then
      offline (tpmClose tpm)
      return .ok { status := .attestationFailed }
    let (quoted, quote) ← offline (tpmQuote tpm nonce nonceLen)
    if ¬ quoted then
      offline (tpmClose tpm)
      return .ok { status := .attestationFailed, quote }
    postAttestation server (endpoint serverUrl attestPath) sessionId tpm quote (attestBody sessionId e)

def rootHeraldAttestOnline (e : Evidence) (server : Server) (serverUrl sessionId nonceB64 : Option CString)
    (outInfo : Bool) (stack : Bytes) : Online (Checked AttestResult) :=
  match serverUrl, sessionId, nonceB64 with
  | some serverUrl, some sessionId, some nonceB64 =>
    if ¬ outInfo then return .ok { status := .invalidParam }
    else
      let (nonceLen, nonce) := base64Decode nonceB64.chars stack
      if nonceLen = 0 then return .ok { status := .invalidParam }
      else attestNonceOnline e server serverUrl.chars sessionId.chars nonce nonceLen
  | _, _, _ => return .ok { status := .invalidParam }

end Source

section Simulation

/-- The call over HTTP does what the call does with this reply; it says nothing, or posts the body, or runs over a
buffer in building it. -/
structure Sends (url : Bytes) (body : Checked Bytes) (s : Exchange) (x : Online (Checked AttestResult))
    (y : Esys AttestResult) : Prop where
  silent : (y s.world).1.posted = false → x s = (.ok (y s.world).1, ⟨(y s.world).2, s.posts⟩)
  sent : (y s.world).1.posted = true → ∀ b, body = .ok b →
    x s = (.ok (y s.world).1, ⟨(y s.world).2, ⟨url, b⟩ :: s.posts⟩)
  fault : (y s.world).1.posted = true → ∀ f, body = .error f → (x s).1 = .error f

variable {url : Bytes} {body : Checked Bytes} {s : Exchange}

theorem Sends.bind {α : Type} {z : Esys α} {f : α → Online (Checked AttestResult)} {g : α → Esys AttestResult}
    (h : Sends url body ⟨(z s.world).2, s.posts⟩ (f (z s.world).1) (g (z s.world).1)) :
    Sends url body s (offline z >>= f) (z >>= g) :=
  ⟨h.silent, h.sent, h.fault⟩

theorem Sends.pure {r : AttestResult} (h : r.posted = false) : Sends url body s (Pure.pure (.ok r)) (Pure.pure r) :=
  ⟨fun _ => rfl, fun hposted => absurd (h.symm.trans hposted) Bool.false_ne_true,
    fun hposted => absurd (h.symm.trans hposted) Bool.false_ne_true⟩

/-- The reply of a server to the body, if one is posted. -/
def RepliesTo (server : Server) (url : Bytes) (body : Checked Bytes) (posts : List Post) (reply : AttestReply) : Prop :=
  ∀ b, body = .ok b → reply = attestReply (server (⟨url, b⟩ :: posts)).1 (server (⟨url, b⟩ :: posts)).2

theorem exists_reply (server : Server) (url : Bytes) (body : Checked Bytes) (posts : List Post) :
    ∃ reply, RepliesTo server url body posts reply := by
  cases body with
  | error fault => exact ⟨⟨0, [], [], [], []⟩, fun b hb => by cases hb⟩
  | ok body =>
    refine ⟨attestReply (server (⟨url, body⟩ :: posts)).1 (server (⟨url, body⟩ :: posts)).2, fun b hb => ?_⟩
    obtain rfl := Except.ok.inj hb
    rfl

/-- Step 9 of the call without HTTP. -/
private def answerOffline (tpm : TpmContext) (sessionId : Bytes) (quote : Option QuoteCall) (reply : AttestReply) :
    Esys AttestResult := do
  if reply.httpCode ≠ 200 then
    tpmClose tpm
    return { status := .attestationFailed, quote, posted := true }
  let info := ⟨sessionId.take 63, reply.status, reply.authorizationCode, reply.redirectUri, reply.reason⟩
  tpmClose tpm
  if reply.status = text "verified" then return { status := .ok, info, quote, posted := true }
  return { status := .attestationFailed, info, quote, posted := true }

private theorem answerAttest_eq (tpm : TpmContext) (sessionId : Bytes) (quote : Option QuoteCall) (reply : AttestReply)
    (s : Exchange) : (answerOffline tpm sessionId quote reply s.world).1.posted = true ∧
      answerAttest tpm sessionId quote reply s = (.ok (answerOffline tpm sessionId quote reply s.world).1,
        ⟨(answerOffline tpm sessionId quote reply s.world).2, s.posts⟩) := by
  unfold answerAttest answerOffline
  by_cases hcode : reply.httpCode ≠ 200
  · rw [if_pos hcode, if_pos hcode]
    exact ⟨rfl, rfl⟩
  · rw [if_neg hcode, if_neg hcode]
    by_cases hstatus : reply.status = text "verified"
    · simp only [if_pos hstatus]
      exact ⟨rfl, rfl⟩
    · simp only [if_neg hstatus]
      exact ⟨rfl, rfl⟩

private theorem postAttestation_sends {server : Server} {reply : AttestReply} (tpm : TpmContext) (sessionId : Bytes)
    (quote : Option QuoteCall) (hreply : RepliesTo server url body s.posts reply) :
    Sends url body s (postAttestation server url sessionId tpm quote body) (answerOffline tpm sessionId quote reply) := by
  cases body with
  | error fault =>
    refine ⟨fun h => ?_, fun _ b hb => (by cases hb), fun _ f hf => by cases hf; rfl⟩
    exact absurd ((answerAttest_eq tpm sessionId quote reply s).1.symm.trans h) (by decide)
  | ok b =>
    refine ⟨fun h => ?_, fun _ b' hb => ?_, fun _ f hf => by cases hf⟩
    · exact absurd ((answerAttest_eq tpm sessionId quote reply s).1.symm.trans h) (by decide)
    · obtain rfl := Except.ok.inj hb
      have honline := (answerAttest_eq tpm sessionId quote reply ⟨s.world, ⟨url, b⟩ :: s.posts⟩).2
      rw [hreply b rfl] at honline ⊢
      exact honline

theorem attestNonceOnline_sends (e : Evidence) {server : Server} (serverUrl sessionId nonce : Bytes) (nonceLen : Nat)
    {reply : AttestReply} (s : Exchange)
    (hreply : RepliesTo server (endpoint serverUrl attestPath) (attestBody sessionId e) s.posts reply) :
    Sends (endpoint serverUrl attestPath) (attestBody sessionId e) s
      (attestNonceOnline e server serverUrl sessionId nonce nonceLen) (attestNonce sessionId nonce nonceLen reply) := by
  refine Sends.bind (z := tpmOpen) ?_
  cases (tpmOpen s.world).1 with
  | none => exact .pure rfl
  | some tpm =>
    refine Sends.bind (z := tpmCreateAk tpm) ?_
    generalize tpmCreateAk tpm (tpmOpen s.world).2 = create
    obtain ⟨⟨created, tpm⟩, w⟩ := create
    cases created with
    | false => exact Sends.bind (.pure rfl)
    | true =>
      refine Sends.bind (z := tpmQuote tpm nonce nonceLen) ?_
      generalize tpmQuote tpm nonce nonceLen w = quote
      obtain ⟨⟨quoted, quote⟩, w⟩ := quote
      cases quoted with
      | false => exact Sends.bind (.pure rfl)
      | true =>
        exact postAttestation_sends tpm sessionId quote hreply

end Simulation
end RootHerald.Linux
