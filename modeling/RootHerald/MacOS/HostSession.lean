import RootHerald.Lib.Frames
import RootHerald.Lib.Json
import RootHerald.MacOS.Attestation
import RootHerald.MacOS.NativeHost

/-! The native messaging host on macOS: requests are whatever NSJSONSerialization reads, and a method
that the class of a value lacks, or a nil in a dictionary literal, ends the process. -/
namespace RootHerald.MacOS
open Lib

section Members

/-- !s || s.length == 0, or none where it raises. -/
def isMissing (member : Option Json) : Option Bool := (asString member).map fun s => s.all (· = [])

/-- The conditions of HandleAttest, in its order. -/
def lacksArgument (serverUrl sessionId nonce : Option Json) : Option Bool := do
  if ← isMissing serverUrl then return true
  if ← isMissing sessionId then return true
  isMissing nonce

/-- UTF8String, as a C string. -/
def utf8String (member : Option Json) : Bytes := ((member.bind stringOf).getD []).takeWhile (· ≠ 0)

end Members

section Handlers

def response (requestId payload : Json) : Json :=
  .object [(text "id", requestId), (text "type", .string (text "response")), (text "payload", payload)]

def refusal (error : Bytes) : Json := .object [(text "success", .bool false), (text "error", .string error)]

def EnrollPayload.json : EnrollPayload → Json
  | .refused error => refusal error
  | .answered success deviceId =>
    .object [(text "success", .bool success), (text "data", .object [(text "deviceId", .string deviceId)])]

def statusPayload (r : RootHeraldResult × DeviceStatus) : Option Json := do
  let deviceId ← stringWithUTF8String r.2.deviceId
  let platform ← stringWithUTF8String r.2.platform
  let data := Json.object [
    (text "status", .string (if r.2.isEnrolled then text "enrolled" else text "not_enrolled")),
    (text "deviceId", .string deviceId), (text "platform", .string platform), (text "hasTpm", .bool r.2.hasTpm)]
  return .object [(text "success", .bool (r.1 = .ok)), (text "data", data)]

/-- No dictionary literal holds the reason, so it may be nil. -/
def errorMember (failureReason : Option Bytes) : List (Bytes × Json) :=
  match failureReason with
  | none => []
  | some reason => if reason = [] then [] else [(text "error", .string reason)]

def enrollPayload (r : EnrollResult) : Option Json :=
  (stringWithUTF8String r.info.deviceId).map fun deviceId => (EnrollPayload.answered (r.status = .ok) deviceId).json

def attestPayload (r : AttestResult) : Option Json := do
  let authorizationCode ← stringWithUTF8String r.info.authorizationCode
  let status ← stringWithUTF8String r.info.status
  let redirectUri ← stringWithUTF8String r.info.redirectUri
  let data := Json.object [(text "authorizationCode", .string authorizationCode), (text "status", .string status),
    (text "redirectUri", .string redirectUri)]
  return .object ([(text "success", .bool (r.status = .ok)), (text "data", data)] ++
    errorMember (stringWithUTF8String r.info.failureReason))

/-- What the driver and its server answer during a request. -/
structure HostEnv where
  sec : Security
  /-- Whether encryptedSecret is base64 for NSData. -/
  decodes : Bool
  enroll : HttpReply Members
  activate : HttpReply Unit
  /-- initWithBase64EncodedString. -/
  decode : Bytes → Option Bytes
  attest : HttpReply Members

def handleStatus (requestId : Json) (env : HostEnv) : StateM Keychain (Option Json) := do
  let r ← rootHeraldGetStatus true env.sec
  return (statusPayload r).map (response requestId)

def handleEnrollRequest (requestId : Json) (serverUrl : Option Json) (env : HostEnv) :
    StateM Keychain (Option Json) := do
  match isMissing serverUrl with
  | none => return none
  | some true => return some (response requestId (EnrollPayload.refused (text "serverUrl is required")).json)
  | some false =>
    let r ← rootHeraldEnrollMembers true true env.sec env.decodes env.enroll env.activate
    return (r.bind enrollPayload).map (response requestId)

def handleAttest (requestId : Json) (serverUrl sessionId nonce : Option Json) (env : HostEnv) :
    StateM Keychain (Option Json) := do
  match lacksArgument serverUrl sessionId nonce with
  | none => return none
  | some true => return some (response requestId (refusal (text "serverUrl, sessionId, and nonce are required")))
  | some false =>
    let r ← rootHeraldAttest (some (utf8String serverUrl)) (some (utf8String sessionId)) (some (utf8String nonce)) true
      env.sec env.decode env.attest
    return (r.bind attestPayload).map (response requestId)

/-- The response, none where the request raises. -/
def handleRequest (request : Members) (env : HostEnv) : StateM Keychain (Option Json) := do
  let serverUrl := request.lookup (text "serverUrl")
  let requestId := (request.lookup (text "id")).getD (.string [])
  match asString (request.lookup (text "action")) with
  | none => return none
  | some action =>
    if action = some (text "status") then handleStatus requestId env
    else if action = some (text "enroll") then handleEnrollRequest requestId serverUrl env
    else if action = some (text "attest") then
      handleAttest requestId serverUrl (request.lookup (text "sessionId")) (request.lookup (text "nonce")) env
    else return some (response requestId (refusal (text "Unknown action: " ++ action.getD (text "(nil)"))))

end Handlers

section Loop

/-- 1 MB. -/
def messageLimit : Nat := 1024 * 1024

def requestFrames : PrefixCode (Framed messageLimit) UInt8 := frames messageLimit (by decide)

/-- NSJSONSerialization. -/
structure Serialization where
  jsonObjectWithData : Bytes → Option Json
  dataWithJSONObject : Json → Option Bytes

variable (nsjson : Serialization)

def fallback : Bytes := text "\x7b\"success\":false,\"error\":\"JSON serialization failed\"\x7d"

/-- The data, as far as a 32-bit length reaches. -/
def responseData (json : Json) : Bytes :=
  let data := (nsjson.dataWithJSONObject json).getD fallback
  data.take (UInt32.ofNat data.length).toNat

def writeResponse (json : Json) : Bytes :=
  let data := (nsjson.dataWithJSONObject json).getD fallback
  bytes32 (UInt32.ofNat data.length) ++ data.take (UInt32.ofNat data.length).toNat

def answerMessage (message : Bytes) (env : HostEnv) : StateM Keychain (Option Json) :=
  match nsjson.jsonObjectWithData message with
  | some (.object request) => handleRequest request env
  | _ => return some (response (.string []) (refusal (text "Invalid JSON request")))

/-- What the process wrote, what it left on stdin, and whether an exception ended it. -/
structure HostEnd where
  stdout : Bytes := []
  stdin : Bytes
  raised : Bool := false

/-- The loop in main. -/
def hostMain (envs : Nat → HostEnv) (stdin : Bytes) : StateM Keychain HostEnd :=
  match h : requestFrames.read stdin with
  | none => return { stdin }
  | some (message, rest) => do
    match ← answerMessage nsjson message.1 (envs 0) with
    | none => return { stdin := rest, raised := true }
    | some json =>
      have := requestFrames.read_shorter h
      let last ← hostMain (fun i => envs (i + 1)) rest
      return { last with stdout := writeResponse nsjson json ++ last.stdout }
termination_by stdin.length

end Loop

section Answers
variable {env : HostEnv} {chain : Keychain} {requestId : Json}

/-- The payload says that the request succeeded. -/
def PayloadSucceeds : Json → Prop
  | .object members => members.lookup (text "success") = some (.bool true)
  | _ => False

/-- Nothing is answered where the request raises, and elsewhere a payload under the id. -/
def Handled (raises succeeds : Prop) (requestId : Json) (answer : Option Json) : Prop :=
  (raises ∧ answer = none) ∨
    (¬ raises ∧ ∃ payload, answer = some (response requestId payload) ∧ (PayloadSucceeds payload ↔ succeeds))

theorem Handled.congr {raises raises' succeeds succeeds' : Prop} {answer : Option Json}
    (h : Handled raises succeeds requestId answer) (hraises : raises ↔ raises') (hsucceeds : succeeds ↔ succeeds') :
    Handled raises' succeeds' requestId answer :=
  propext hraises ▸ propext hsucceeds ▸ h

@[simp] theorem payloadSucceeds_object (success : Bool) (members : List (Bytes × Json)) :
    PayloadSucceeds (.object ((text "success", .bool success) :: members)) ↔ success = true := by
  rw [PayloadSucceeds, List.lookup_cons, beq_self_eq_true]
  simp

theorem Handled.refused (error : Bytes) : Handled False False requestId (some (response requestId (refusal error))) :=
  .inr ⟨id, _, rfl, by simp [refusal]⟩

theorem handleStatus_handled (requestId : Json) (env : HostEnv) (chain : Keychain) :
    Handled False True requestId ((handleStatus requestId env).run chain).1 := by
  have hstatus : Triple (fun _ => True) (rootHeraldGetStatus true env.sec) fun r _ =>
      r.1 = .ok ∧ r.2.deviceId = [] ∧ r.2.platform = text "macos" := by
    refine .ite (fun h => absurd rfl h) fun _ => .ite (fun _ => .pure fun _ _ => ⟨rfl, rfl, rfl⟩) fun _ => ?_
    refine .bind (.any _) fun key => ?_
    cases key with
    | none => exact .pure fun _ _ => ⟨rfl, rfl, rfl⟩
    | some key => exact .pure fun _ _ => ⟨rfl, rfl, rfl⟩
  obtain ⟨hok, hid, hplatform⟩ := hstatus chain trivial
  have hrun : ((handleStatus requestId env).run chain).1 =
      (statusPayload ((rootHeraldGetStatus true env.sec).run chain).1).map (response requestId) := rfl
  rw [hrun]
  generalize ((rootHeraldGetStatus true env.sec).run chain).1 = r at hok hid hplatform ⊢
  have hempty : stringWithUTF8String r.2.deviceId = some [] := by
    rw [hid]
    rfl
  have htext : stringWithUTF8String r.2.platform = some (text "macos") := by
    rw [hplatform, stringWithUTF8String, if_pos (Utf8.valid_text _)]
  refine .inr ⟨id, ?_⟩
  simp only [statusPayload, hempty, htext, hok, Option.bind_eq_bind, Option.bind_some, Option.pure_def, Option.map_some]
  exact ⟨_, rfl, by simp⟩

theorem postEnrollment_noId {sec : Security} {decodes : Bool} (reply : EnrollReply) (activate : HttpReply Unit) :
    (postEnrollment sec decodes reply activate).status ≠ .ok →
      (postEnrollment sec decodes reply activate).info.deviceId = [] := by
  unfold postEnrollment
  split
  · split_ifs
    · exact fun h => absurd rfl h
    · exact fun h => absurd rfl h
    · exact fun _ => rfl
    · exact fun _ => rfl
  · exact fun _ => rfl

/-- An enrollment that fails hands out no device id. -/
theorem rootHeraldEnroll_noId (sec : Security) (decodes : Bool) (enroll : HttpReply EnrollReply) (activate : HttpReply Unit) :
    Triple (fun _ => True) (rootHeraldEnroll true true sec decodes enroll activate) fun r _ =>
      r.status ≠ .ok → r.info.deviceId = [] := by
  refine .ite (fun _ => .pure fun _ _ _ => rfl) fun _ => .ite (fun _ => .pure fun _ _ _ => rfl) fun _ =>
    .bind (.any _) fun key => ?_
  cases key with
  | none => exact .pure fun _ _ _ => rfl
  | some key =>
    refine .ite (fun _ => .pure fun _ _ _ => rfl) fun _ => ?_
    cases enroll.dictionary with
    | none => exact .pure fun _ _ _ => rfl
    | some reply =>
      refine .ite (fun _ => .pure fun _ _ _ => rfl) fun _ => .pure fun _ _ hfail => ?_
      exact postEnrollment_noId reply activate hfail

/-- The request gets to the driver and the reply raises, or its device id is cut inside a character. -/
def EnrollRaises (serverUrl : Option Json) (env : HostEnv) (chain : Keychain) : Prop :=
  isMissing serverUrl = none ∨ (isMissing serverUrl = some false ∧
    (ReplyRaises chain true true env.sec env.decodes env.enroll env.activate ∨
      (EnrollCompletes chain true true env.sec env.decodes (utf8Reply env.enroll) ∧ ¬ KeepsDeviceId (utf8Reply env.enroll))))

def EnrollSucceeds (serverUrl : Option Json) (env : HostEnv) (chain : Keychain) : Prop :=
  isMissing serverUrl = some false ∧ EnrollCompletes chain true true env.sec env.decodes (utf8Reply env.enroll)

/-- An enrollment whose members are strings where they are used. -/
private theorem enrolled_handled (requestId : Json) (env : HostEnv) (chain : Keychain) :
    Handled (EnrollCompletes chain true true env.sec env.decodes (utf8Reply env.enroll) ∧ ¬ KeepsDeviceId (utf8Reply env.enroll))
      (EnrollCompletes chain true true env.sec env.decodes (utf8Reply env.enroll)) requestId
      ((enrollPayload ((rootHeraldEnroll true true env.sec env.decodes (utf8Reply env.enroll) env.activate).run chain).1).map
        (response requestId)) := by
  have houtcome : Outcome (EnrollCompletes chain true true env.sec env.decodes (utf8Reply env.enroll))
      (repliedId (utf8Reply env.enroll)) env.activate
      ((rootHeraldEnroll true true env.sec env.decodes (utf8Reply env.enroll) env.activate).run chain).1 :=
    rootHeraldEnroll_outcome chain true true (utf8Reply env.enroll) env.activate
  have hnoId := rootHeraldEnroll_noId env.sec env.decodes (utf8Reply env.enroll) env.activate chain trivial
  generalize ((rootHeraldEnroll true true env.sec env.decodes (utf8Reply env.enroll) env.activate).run chain).1 = r
    at houtcome hnoId ⊢
  rcases houtcome with ⟨hcompletes, hok, -, hid⟩ | ⟨hnot, hok, -⟩
  · obtain ⟨deviceId, hreplied, hcopy⟩ := Option.map_eq_some_iff.mp hid.symm
    by_cases hkeeps : Utf8.valid (safeCopy deviceIdSize deviceId) = true
    · refine .inr ⟨fun h => h.2 ⟨deviceId, hreplied, hkeeps⟩, (EnrollPayload.answered true r.info.deviceId).json, ?_, ?_⟩
      · rw [enrollPayload, ← hcopy, stringWithUTF8String, if_pos hkeeps, hok]
        rfl
      · exact iff_of_true (by simp [EnrollPayload.json]) hcompletes
    · refine .inl ⟨⟨hcompletes, ?_⟩, ?_⟩
      · rintro ⟨deviceId', hreplied', hvalid⟩
        obtain rfl := Option.some.inj (hreplied.symm.trans hreplied')
        exact hkeeps hvalid
      · rw [enrollPayload, ← hcopy, stringWithUTF8String, if_neg hkeeps]
        rfl
  · refine .inr ⟨fun h => hnot h.1, (EnrollPayload.answered false []).json, ?_, ?_⟩
    · rw [enrollPayload, hnoId hok, decide_eq_false hok]
      rfl
    · exact iff_of_false (by simp [EnrollPayload.json]) hnot

/-- An enrollment that reaches the driver. -/
private theorem enrollMembers_handled (requestId : Json) (env : HostEnv) (chain : Keychain) :
    Handled (ReplyRaises chain true true env.sec env.decodes env.enroll env.activate ∨
        (EnrollCompletes chain true true env.sec env.decodes (utf8Reply env.enroll) ∧ ¬ KeepsDeviceId (utf8Reply env.enroll)))
      (EnrollCompletes chain true true env.sec env.decodes (utf8Reply env.enroll)) requestId
      ((((rootHeraldEnrollMembers true true env.sec env.decodes env.enroll env.activate).run chain).1.bind enrollPayload).map
        (response requestId)) := by
  rcases rootHeraldEnrollMembers_cases env.sec env.decodes chain true true env.enroll env.activate with
    ⟨hraises, hnone⟩ | ⟨hnot, hstrings⟩
  · exact .inl ⟨.inl hraises, by rw [hnone]; rfl⟩
  · rw [hstrings]
    apply (enrolled_handled requestId env chain).congr
    · simp [hnot]
    · rfl

theorem handleEnrollRequest_handled (requestId : Json) (serverUrl : Option Json) (env : HostEnv) (chain : Keychain) :
    Handled (EnrollRaises serverUrl env chain) (EnrollSucceeds serverUrl env chain) requestId
      ((handleEnrollRequest requestId serverUrl env).run chain).1 := by
  unfold handleEnrollRequest EnrollRaises EnrollSucceeds
  match isMissing serverUrl with
  | none => exact .inl ⟨.inl rfl, rfl⟩
  | some true =>
    apply (Handled.refused (text "serverUrl is required")).congr
    · simp
    · simp
  | some false =>
    apply (enrollMembers_handled requestId env chain).congr
    · simp
    · simp

/-- The texts that are handed out with the result survive the copies into their fields. -/
def KeepsTexts (reply : AttestReply) : Prop :=
  Utf8.valid (safeCopy authorizationCodeSize (reply.authorizationCode.getD [])) = true ∧
    Utf8.valid (safeCopy statusSize (reply.status.getD [])) = true ∧
    Utf8.valid (safeCopy redirectUriSize (reply.redirectUri.getD [])) = true

/-- The members are strings, and the texts among them are handed out. -/
def HandsOut (members : Members) : Prop := ∃ reply ∈ attestReply members, KeepsTexts reply

def Verifies (members : Members) : Prop := ∃ reply ∈ attestReply members, reply.status = some (text "verified")

def AttestRaises (serverUrl sessionId nonce : Option Json) (env : HostEnv) (chain : Keychain) : Prop :=
  lacksArgument serverUrl sessionId nonce = none ∨ (lacksArgument serverUrl sessionId nonce = some false ∧
    ∃ members, AttestAnswered chain (utf8String nonce) env.sec env.decode env.attest members ∧ ¬ HandsOut members)

def AttestSucceeds (serverUrl sessionId nonce : Option Json) (env : HostEnv) (chain : Keychain) : Prop :=
  lacksArgument serverUrl sessionId nonce = some false ∧
    ∃ members, AttestAnswered chain (utf8String nonce) env.sec env.decode env.attest members ∧ Verifies members

/-- A text of the result that is no UTF-8 is nil in a dictionary literal; a failure reason that is none is
left out. -/
theorem attestPayload_handled (requestId : Json) (r : AttestResult) :
    Handled (¬ (Utf8.valid r.info.authorizationCode = true ∧ Utf8.valid r.info.status = true ∧
      Utf8.valid r.info.redirectUri = true)) (r.status = .ok) requestId ((attestPayload r).map (response requestId)) := by
  unfold attestPayload stringWithUTF8String
  by_cases hcode : Utf8.valid r.info.authorizationCode = true
  · by_cases hstatus : Utf8.valid r.info.status = true
    · by_cases huri : Utf8.valid r.info.redirectUri = true
      · refine .inr ⟨fun h => h ⟨hcode, hstatus, huri⟩, ?_⟩
        rw [if_pos hcode, if_pos hstatus, if_pos huri]
        exact ⟨_, rfl, by simp⟩
      · refine .inl ⟨fun h => huri h.2.2, ?_⟩
        rw [if_pos hcode, if_pos hstatus, if_neg huri]
        rfl
    · refine .inl ⟨fun h => hstatus h.2.1, ?_⟩
      rw [if_pos hcode, if_neg hstatus]
      rfl
  · refine .inl ⟨fun h => hcode h.1, ?_⟩
    rw [if_neg hcode]
    rfl

/-- An attestation that reaches the driver. -/
private theorem attested_handled (requestId : Json) (serverUrl sessionId nonceB64 : Bytes) (env : HostEnv) (chain : Keychain) :
    Handled (∃ members, AttestAnswered chain nonceB64 env.sec env.decode env.attest members ∧ ¬ HandsOut members)
      (∃ members, AttestAnswered chain nonceB64 env.sec env.decode env.attest members ∧ Verifies members) requestId
      ((((rootHeraldAttest (some serverUrl) (some sessionId) (some nonceB64) true env.sec env.decode env.attest).run
        chain).1.bind attestPayload).map (response requestId)) := by
  have houtcome : AttestOutcome chain sessionId nonceB64 env.sec env.decode env.attest _ :=
    rootHeraldAttest_outcome chain serverUrl sessionId nonceB64
  generalize ((rootHeraldAttest (some serverUrl) (some sessionId) (some nonceB64) true env.sec env.decode env.attest).run
    chain).1 = r at houtcome ⊢
  rcases houtcome with ⟨members, hanswered, hnone, rfl⟩ | ⟨members, reply, result, hanswered, hreply, rfl, hinfo, hok⟩ |
    ⟨hnot, result, rfl, hinfo, hok⟩
  · refine .inl ⟨⟨members, hanswered, fun ⟨reply, hreply, _⟩ => ?_⟩, rfl⟩
    cases hnone.symm.trans hreply
  · have hunique {members' : Members} {reply' : AttestReply}
        (h : AttestAnswered chain nonceB64 env.sec env.decode env.attest members') (hreply' : attestReply members' = some reply') :
        reply' = reply := by
      obtain rfl := Option.some.inj (h.2.2.symm.trans hanswered.2.2)
      exact Option.some.inj (hreply'.symm.trans hreply)
    apply (attestPayload_handled requestId result).congr
    · rw [hinfo]
      constructor
      · exact fun hraises => ⟨members, hanswered, fun ⟨reply', hreply', hkeeps⟩ => hraises (hunique hanswered hreply' ▸ hkeeps)⟩
      · rintro ⟨members', h, hraises⟩ hkeeps
        obtain rfl := Option.some.inj (h.2.2.symm.trans hanswered.2.2)
        exact hraises ⟨reply, hreply, hkeeps⟩
    · rw [hok]
      exact ⟨fun hverified => ⟨members, hanswered, reply, hreply, hverified⟩,
        fun ⟨members', h, reply', hreply', hverified⟩ => hunique h hreply' ▸ hverified⟩
  · apply (attestPayload_handled requestId result).congr
    · rw [hinfo]
      exact iff_of_false (fun h => h ⟨rfl, rfl, rfl⟩) fun ⟨members, h, _⟩ => hnot members h
    · exact iff_of_false hok fun ⟨members, h, _⟩ => hnot members h

theorem handleAttest_handled (requestId : Json) (serverUrl sessionId nonce : Option Json) (env : HostEnv) (chain : Keychain) :
    Handled (AttestRaises serverUrl sessionId nonce env chain) (AttestSucceeds serverUrl sessionId nonce env chain) requestId
      ((handleAttest requestId serverUrl sessionId nonce env).run chain).1 := by
  unfold handleAttest AttestRaises AttestSucceeds
  match lacksArgument serverUrl sessionId nonce with
  | none => exact .inl ⟨.inl rfl, rfl⟩
  | some true =>
    apply (Handled.refused (text "serverUrl, sessionId, and nonce are required")).congr
    · simp
    · simp
  | some false =>
    apply (attested_handled requestId (utf8String serverUrl) (utf8String sessionId) (utf8String nonce) env chain).congr
    · simp
    · simp

/-- The request ends the process. -/
def RequestRaises (request : Members) (env : HostEnv) (chain : Keychain) : Prop :=
  match asString (request.lookup (text "action")) with
  | none => True
  | some action =>
    if action = some (text "status") then False
    else if action = some (text "enroll") then EnrollRaises (request.lookup (text "serverUrl")) env chain
    else if action = some (text "attest") then
      AttestRaises (request.lookup (text "serverUrl")) (request.lookup (text "sessionId")) (request.lookup (text "nonce"))
        env chain
    else False

def RequestSucceeds (request : Members) (env : HostEnv) (chain : Keychain) : Prop :=
  match asString (request.lookup (text "action")) with
  | none => False
  | some action =>
    if action = some (text "status") then True
    else if action = some (text "enroll") then EnrollSucceeds (request.lookup (text "serverUrl")) env chain
    else if action = some (text "attest") then
      AttestSucceeds (request.lookup (text "serverUrl")) (request.lookup (text "sessionId")) (request.lookup (text "nonce"))
        env chain
    else False

theorem handleRequest_handled (request : Members) (env : HostEnv) (chain : Keychain) :
    Handled (RequestRaises request env chain) (RequestSucceeds request env chain)
      ((request.lookup (text "id")).getD (.string [])) ((handleRequest request env).run chain).1 := by
  unfold handleRequest RequestRaises RequestSucceeds
  dsimp only
  cases asString (request.lookup (text "action")) with
  | none => exact .inl ⟨trivial, rfl⟩
  | some action =>
    dsimp only
    split_ifs
    · exact handleStatus_handled _ env chain
    · exact handleEnrollRequest_handled _ _ env chain
    · exact handleAttest_handled _ _ _ _ env chain
    · exact .refused _

end Answers

section Session
variable (nsjson : Serialization)

/-- A message, what its environment answers, and the keychain it finds. -/
structure Turn where
  message : Bytes
  env : HostEnv
  chain : Keychain

/-- The members of the request, if the message holds an object. -/
def Turn.request (t : Turn) : Option Members :=
  match nsjson.jsonObjectWithData t.message with
  | some (.object request) => some request
  | _ => none

/-- The id that is echoed, of whatever type. -/
def Turn.id (t : Turn) : Json := ((t.request nsjson).bind (·.lookup (text "id"))).getD (.string [])

def Turn.Raises (t : Turn) : Prop := ∃ request ∈ t.request nsjson, RequestRaises request t.env t.chain

def Turn.Succeeds (t : Turn) : Prop := ∃ request ∈ t.request nsjson, RequestSucceeds request t.env t.chain

/-- A response under the id of the turn's request, that says whether it succeeded. -/
def Turn.AnsweredBy (t : Turn) (json : Json) : Prop :=
  ∃ payload, json = response (t.id nsjson) payload ∧ (PayloadSucceeds payload ↔ t.Succeeds nsjson)

/-- The turns of a session, each with the keychain the one before it left. -/
def turns (envs : Nat → HostEnv) : List (Framed messageLimit) → Keychain → List Turn
  | [], _ => []
  | message :: messages, chain =>
    ⟨message.1, envs 0, chain⟩ ::
      turns (fun i => envs (i + 1)) messages ((answerMessage nsjson message.1 (envs 0)).run chain).2

/-- The turns are answered in order, up to the first that raises. -/
inductive Served : List Turn → List Json → Bool → Prop
  | done : Served [] [] false
  | raised {t ts} (h : t.Raises nsjson) : Served (t :: ts) [] true
  | answered {t ts json jsons raised} (h : ¬ t.Raises nsjson) (hjson : t.AnsweredBy nsjson json)
      (hserved : Served ts jsons raised) : Served (t :: ts) (json :: jsons) raised

/-- The browser takes any length. -/
def responseFrames : PrefixCode (Framed (UInt32.size - 1)) UInt8 := frames (UInt32.size - 1) wordLimit_lt

theorem responseData_length (json : Json) : (responseData nsjson json).length =
    (UInt32.ofNat ((nsjson.dataWithJSONObject json).getD fallback).length).toNat := by
  have hle : (UInt32.ofNat ((nsjson.dataWithJSONObject json).getD fallback).length).toNat ≤
      ((nsjson.dataWithJSONObject json).getD fallback).length := by
    rw [UInt32.toNat_ofNat']
    exact Nat.mod_le _ _
  exact List.length_take_of_le hle

def responseFrame (json : Json) : Framed (UInt32.size - 1) :=
  ⟨responseData nsjson json, by
    rw [responseData_length]
    exact Nat.le_sub_one_of_lt (UInt32.toNat_lt _)⟩

/-- The length in front is that of the data behind it, also where it was cut. -/
theorem writeResponse_frame (json : Json) : writeResponse nsjson json = responseFrames.write (responseFrame nsjson json) := by
  change _ = writeFrame (responseData nsjson json)
  rw [writeFrame, responseData_length, UInt32.ofNat_toNat]
  rfl

theorem answerMessage_handled (t : Turn) :
    Handled (t.Raises nsjson) (t.Succeeds nsjson) (t.id nsjson) ((answerMessage nsjson t.message t.env).run t.chain).1 := by
  have hinvalid (h : t.request nsjson = none) : Handled (t.Raises nsjson) (t.Succeeds nsjson) (t.id nsjson)
      (some (response (.string []) (refusal (text "Invalid JSON request")))) := by
    unfold Turn.Raises Turn.Succeeds Turn.id
    rw [h]
    apply (Handled.refused (text "Invalid JSON request")).congr
    · simp
    · simp
  unfold answerMessage
  split
  · rename_i request hparse
    have hrequest : t.request nsjson = some request := by rw [Turn.request, hparse]
    unfold Turn.Raises Turn.Succeeds Turn.id
    rw [hrequest]
    apply (handleRequest_handled request t.env t.chain).congr
    · simp
    · simp
  · rename_i hparse
    apply hinvalid
    unfold Turn.request
    split
    · rename_i request heq
      exact absurd heq (hparse request)
    · rfl

private theorem hostMain_stop {stdin : Bytes} (envs : Nat → HostEnv) (chain : Keychain) (h : requestFrames.read stdin = none) :
    (hostMain nsjson envs stdin).run chain = ({ stdin }, chain) := by
  rw [hostMain]
  split
  · rfl
  · rename_i heq
    rw [h] at heq
    cases heq

variable {stdin rest : Bytes} {message : Framed messageLimit} (envs : Nat → HostEnv) (chain : Keychain)

private theorem hostMain_turn (h : requestFrames.read stdin = some (message, rest)) :
    hostMain nsjson envs stdin = answerMessage nsjson message.1 (envs 0) >>= fun answer =>
      answer.elim (Pure.pure { stdin := rest, raised := true }) fun json =>
        hostMain nsjson (fun i => envs (i + 1)) rest >>= fun last =>
          Pure.pure { last with stdout := writeResponse nsjson json ++ last.stdout } := by
  rw [hostMain]
  split
  · rename_i heq
    rw [h] at heq
    cases heq
  · rename_i heq
    rw [h] at heq
    cases heq
    refine congrArg (answerMessage nsjson message.1 (envs 0) >>= ·) (funext fun answer => ?_)
    cases answer with
    | none => rfl
    | some json => rfl

private theorem hostMain_raised (h : requestFrames.read stdin = some (message, rest))
    (hanswer : ((answerMessage nsjson message.1 (envs 0)).run chain).1 = none) :
    ((hostMain nsjson envs stdin).run chain).1 = { stdin := rest, raised := true } := by
  rw [hostMain_turn nsjson envs h]
  change ((((answerMessage nsjson message.1 (envs 0)).run chain).1.elim _ _ : StateM Keychain HostEnd).run _).1 = _
  rw [hanswer]
  rfl

private theorem hostMain_answered (h : requestFrames.read stdin = some (message, rest)) {json : Json}
    (hanswer : ((answerMessage nsjson message.1 (envs 0)).run chain).1 = some json) :
    ((hostMain nsjson envs stdin).run chain).1 =
      let last := ((hostMain nsjson (fun i => envs (i + 1)) rest).run
        ((answerMessage nsjson message.1 (envs 0)).run chain).2).1
      { last with stdout := writeResponse nsjson json ++ last.stdout } := by
  rw [hostMain_turn nsjson envs h]
  change ((((answerMessage nsjson message.1 (envs 0)).run chain).1.elim _ _ : StateM Keychain HostEnd).run _).1 = _
  rw [hanswer]
  rfl

/-- Whatever stands on stdin, whatever the environment answers and however requests are read and responses
written as JSON: the host answers the messages of at most 1 MB in order, one frame for each, under the id
of its own request, up to the first request that raises, which ends the process unanswered; the other
end reads back these frames and nothing else. -/
theorem host_served (envs : Nat → HostEnv) (stdin : Bytes) (chain : Keychain) :
    let last := ((hostMain nsjson envs stdin).run chain).1
    ∃ jsons, Served nsjson (turns nsjson envs (requestFrames.readAll stdin).1 chain) jsons last.raised ∧
      responseFrames.readAll last.stdout = (jsons.map (responseFrame nsjson), []) ∧
      (last.raised = false → last.stdin = (requestFrames.readAll stdin).2) := by
  -- every turn leaves a shorter stdin
  induction stdin using requestFrames.readAll_induction generalizing envs chain with
  | stop stdin h =>
    rw [requestFrames.readAll_none h, hostMain_stop nsjson envs chain h]
    exact ⟨[], .done, responseFrames.readAll_none rfl, fun _ => rfl⟩
  | step stdin message rest h ih =>
    rw [requestFrames.readAll_some h]
    have hturn : Handled _ _ _ ((answerMessage nsjson message.1 (envs 0)).run chain).1 :=
      answerMessage_handled nsjson ⟨message.1, envs 0, chain⟩
    rcases hturn with ⟨hraises, hanswer⟩ | ⟨hraises, payload, hanswer, hsucceeds⟩
    · rw [hostMain_raised nsjson envs chain h hanswer]
      exact ⟨[], .raised hraises, responseFrames.readAll_none rfl, fun h => by cases h⟩
    · rw [hostMain_answered nsjson envs chain h hanswer]
      obtain ⟨jsons, hserved, hread, hleft⟩ :=
        ih (fun i => envs (i + 1)) ((answerMessage nsjson message.1 (envs 0)).run chain).2
      refine ⟨response _ payload :: jsons, .answered hraises ⟨payload, rfl, hsucceeds⟩ hserved, ?_, hleft⟩
      rw [writeResponse_frame, responseFrames.readAll_write, hread]
      rfl

end Session
end RootHerald.MacOS
