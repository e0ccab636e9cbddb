import RootHerald.Linux.AttestOutcome
import RootHerald.Linux.HostEnrollment
import RootHerald.Linux.ResponseReading

/-! What the Linux host writes for a request, and when a reader finds the request's id in it. -/
namespace RootHerald.Linux
open Lib Json

section Status

/-- The device id that GetStatus finds in the file, up to a terminator. -/
def fileDeviceId : Option Bytes → Bytes
  | none => []
  | some content =>
    ((content.take 63).reverse.dropWhile fun ch => ch = '\n'.toUInt8 || ch = '\r'.toUInt8).reverse.takeWhile (· ≠ 0)

/-- What GetStatus fills in but the TPM. -/
structure StatusOf (deviceIdFile : Option Bytes) (status : DeviceStatus) : Prop where
  deviceId : status.deviceId.takeWhile (· ≠ 0) = fileDeviceId deviceIdFile
  length : status.deviceId.length ≤ 63
  platform : status.platform = text "linux"

theorem rootHeraldGetStatus_status (available : Bool) (deviceIdFile : Option Bytes) : Triple (fun _ => True)
    (rootHeraldGetStatus true available deviceIdFile) fun r _ => StatusOf deviceIdFile r.2 := by
  have hstrip : ∀ content : Bytes, ((content.take 63).reverse.dropWhile
      fun ch => ch = '\n'.toUInt8 || ch = '\r'.toUInt8).reverse.length ≤ 63 := by
    intro content
    rw [List.length_reverse]
    refine (List.dropWhile_suffix _).length_le.trans ?_
    rw [List.length_reverse]
    exact List.length_take_le _ _
  refine .ite (fun h => absurd rfl h) fun _ => ?_
  cases deviceIdFile with
  | none =>
    refine .ite (fun _ => .pure fun _ _ => ⟨rfl, Nat.zero_le _, rfl⟩) fun _ => .bind (.any _) fun tpm => ?_
    cases tpm with
    | none => exact .pure fun _ _ => ⟨rfl, Nat.zero_le _, rfl⟩
    | some tpm => exact .bind (.any _) fun _ => .pure fun _ _ => ⟨rfl, Nat.zero_le _, rfl⟩
  | some content =>
    refine .ite (fun _ => .pure fun _ _ => ⟨rfl, hstrip content, rfl⟩) fun _ => .bind (.any _) fun tpm => ?_
    cases tpm with
    | none => exact .pure fun _ _ => ⟨rfl, hstrip content, rfl⟩
    | some tpm => exact .bind (.any _) fun _ => .pure fun _ _ => ⟨rfl, hstrip content, rfl⟩

end Status

section Responses
variable {requestId payload : Bytes} {size : Nat} {P Q : Prop}

/-- The response is a body that answers the request exactly if its id is text and P. -/
def Responds (requestId : Bytes) (P : Prop) (response : Checked Bytes) : Prop :=
  ∃ body, response = .ok body ∧ body.length < 2 ^ 32 ∧
    ∀ id, Answers id body ↔ requestId = id ∧ Windows.isText requestId = true ∧ P

theorem Responds.congr {response : Checked Bytes} (h : Responds requestId P response) (hPQ : P ↔ Q) :
    Responds requestId Q response :=
  propext hPQ ▸ h

/-- The payload of every answer fits the response. -/
private theorem buildResponse_ok (hid : requestId.length ≤ 63) (hpayload : payload.length + 172 < size)
    (hsize : size ≤ 2 ^ 32) : buildResponse size requestId payload = .ok (responseBody requestId payload) ∧
      (responseBody requestId payload).length < 2 ^ 32 :=
  ⟨buildResponse_eq hid hpayload, ((responseBody_length hid payload).trans_lt hpayload).trans_le hsize⟩

theorem buildResponse_responds (hid : requestId.length ≤ 63) (hlength : payload.length + 172 < size)
    (hsize : size ≤ 2 ^ 32) (hpayload : ReadIff 3 payload P) : Responds requestId P (buildResponse size requestId payload) := by
  obtain ⟨hbuild, hbody⟩ := buildResponse_ok hid hlength hsize
  exact ⟨_, hbuild, hbody, responseBody_answers_iff hpayload requestId⟩

/-- Where the data are cut the response answers nothing. -/
theorem buildResponse_cut {ok : Bool} {info : AttestationInfo} {w mark reason : Bytes} (hid : requestId.length ≤ 63)
    (hmark : mark = [] ∨ mark = [quotationMark]) (hlength : (attestText ok (cutData info w mark) reason).length + 172 < size)
    (hsize : size ≤ 2 ^ 32) :
    Responds requestId False (buildResponse size requestId (attestText ok (cutData info w mark) reason)) := by
  obtain ⟨hbuild, hbody⟩ := buildResponse_ok hid hlength hsize
  exact ⟨_, hbuild, hbody, fun id => iff_of_false (not_answers_of_none (parse_cut _ _ _ _ _ _ hmark)) fun h => h.2.2⟩

theorem errorPayload_responds {message : Bytes} {errorSize : Nat} (hid : requestId.length ≤ 63)
    (hmessage : 2 * message.length + 40 ≤ errorSize) (hlength : 2 * message.length + 212 < size) (hsize : size ≤ 2 ^ 32) :
    Responds requestId (Windows.isText message = true)
      (errorPayload errorSize message >>= fun payload => buildResponse size requestId payload) := by
  rw [errorPayload_eq hmessage, ok_bind]
  refine buildResponse_responds hid ?_ hsize (errorText_reads message).deeper
  have hle := errorText_length message
  omega

/-- A request that lacks an argument is answered whatever it says elsewhere. -/
theorem refusal_responds {message : Bytes} {errorSize : Nat} (hid : requestId.length ≤ 63)
    (hmessage : message.length ≤ 64 ∧ Windows.isText message = true) (herror : 168 ≤ errorSize) (hP : P) :
    Responds requestId P (errorPayload errorSize message >>= fun payload => buildResponse 4096 requestId payload) := by
  refine (errorPayload_responds hid ?_ ?_ (by decide)).congr (iff_of_true hmessage.2 hP)
  · omega
  · omega

end Responses

section Handlers
variable {requestId : Bytes}

theorem handleStatus_responds (hid : requestId.length ≤ 63) (env : HostEnv) (w : World) :
    Responds requestId (Windows.isText (fileDeviceId env.deviceIdFile) = true) ((handleStatus requestId env).run w).1 := by
  have hstatus := rootHeraldGetStatus_status env.available env.deviceIdFile w trivial
  have hrun : ((handleStatus requestId env).run w).1 =
      statusPayload ((rootHeraldGetStatus true env.available env.deviceIdFile).run w).1 >>=
        fun payload => buildResponse 4096 requestId payload := rfl
  rw [hrun]
  generalize ((rootHeraldGetStatus true env.available env.deviceIdFile).run w).1 = r at hstatus ⊢
  have hplatform : r.2.platform.length ≤ 15 := hstatus.platform ▸ (by decide : (text "linux").length ≤ 15)
  rw [statusPayload_eq hstatus.length hplatform, ok_bind]
  refine buildResponse_responds hid ?_ (by decide) ?_
  · have hle := statusText_length hstatus.length hplatform
    omega
  · refine (dataText_reads _ (statusData_reads hstatus.platform) (by decide)).congr ?_
    rw [hstatus.deviceId]

/-- The device id of an enrollment that is handed out is text. -/
def EnrollClean (serverUrl : CString) (env : HostEnv) (codes : List Bool) : Prop :=
  serverUrl.chars ≠ [] →
    EnrollCompletes (some serverUrl) true (enrollReply env.httpCode env.received) env.activateCode codes →
      Windows.isText (enrollReply env.httpCode env.received).deviceId = true

theorem handleEnroll_responds (hid : requestId.length ≤ 63) (serverUrl : CString) (env : HostEnv) (w : World) :
    Responds requestId (EnrollClean serverUrl env w.codes) ((handleEnroll requestId serverUrl env).run w).1 := by
  have hrun : ((handleEnroll requestId serverUrl env).run w).1 =
      ((enrollAnswer serverUrl env).run w).1.payload >>= fun payload => buildResponse 4096 requestId payload := rfl
  rw [hrun]
  by_cases hurl : serverUrl.chars = []
  · have hmessage : (text "serverUrl is required").length ≤ 64 ∧ Windows.isText (text "serverUrl is required") = true := by
      decide
    rw [enrollAnswer_noUrl hurl]
    exact refusal_responds hid hmessage (by decide) fun h => absurd hurl h
  · have hlength := hostEnroll_deviceId_length serverUrl env w
    have hid' := rootHeraldEnroll_deviceId (some serverUrl) true (enrollReply env.httpCode env.received)
      env.activateCode w trivial
    have hok := rootHeraldEnroll_ok_iff (some serverUrl) true (enrollReply env.httpCode env.received)
      env.activateCode w.tpm w.codes
    change ((rootHeraldEnroll _ _ _ _).run w).1.status = .ok ↔ _ at hok
    rw [enrollAnswer_url hurl]
    dsimp only
    generalize ((rootHeraldEnroll (some serverUrl) true (enrollReply env.httpCode env.received)
      env.activateCode).run w).1 = r at hlength hid' hok ⊢
    rw [enrollPayload_eq hlength, ok_bind]
    refine buildResponse_responds hid ?_ (by decide) ?_
    · have hle := enrollText_length hlength
      omega
    · refine (dataText_reads _ (enrollData_reads r.info) (by decide)).congr ?_
      rw [hid', EnrollClean, ← hok]
      split_ifs with hstatus
      · exact ⟨fun h _ _ => h, fun h => h hurl hstatus⟩
      · exact iff_of_true rfl fun _ h => absurd h hstatus

/-- What the server says of an attestation that is handed out is text, and the data have room for it. -/
def AttestClean (serverUrl sessionId nonce : CString) (env : HostEnv) (codes : List Bool) : Prop :=
  serverUrl.chars ≠ [] → sessionId.chars ≠ [] → nonce.chars ≠ [] →
    AttestAnswered nonce env.stack (attestReply env.httpCode env.received) codes →
      InfoIsText (attestInfo sessionId.chars (attestReply env.httpCode env.received)) ∧
        (attestData (attestInfo sessionId.chars (attestReply env.httpCode env.received))).length < 4096

private theorem attestPayload_responds (hid : requestId.length ≤ 63) {r : AttestResult} (hfits : AttestFits r.info) :
    Responds requestId (InfoIsText r.info ∧ (attestData r.info).length < 4096)
      (attestPayload r >>= fun payload => buildResponse 16384 requestId payload) := by
  have hlength {data : Bytes} (hdata : data.length < 4096) :
      (attestText (r.status = .ok) data r.info.failureReason).length + 172 < 16384 := by
    have hle : (attestText (r.status = .ok) data r.info.failureReason).length ≤ 5160 :=
      attestText_length (Nat.le_of_lt_succ hdata) hfits.failureReason
    omega
  by_cases hroom : (attestData r.info).length < 4096
  · rw [attestPayload_eq hfits.failureReason (jsonObject_fits hroom) (Nat.le_of_lt_succ hroom), ok_bind]
    refine (buildResponse_responds hid (hlength hroom) (by decide) (attestText_reads _ r.info)).congr ?_
    exact (and_iff_left hroom).symm
  · obtain ⟨w, mark, -, hmark, hcut, hdata⟩ := jsonObject_lastCut (lastHead_length hfits) (not_lt.mp hroom)
    rw [attestPayload_eq hfits.failureReason hdata (Nat.le_of_lt_succ hcut), ok_bind]
    exact (buildResponse_cut hid hmark (hlength hcut) (by decide)).congr (iff_of_false id fun h => hroom h.2)

theorem handleAttest_responds (hid : requestId.length ≤ 63) (serverUrl sessionId nonce : CString) (env : HostEnv)
    (w : World) : Responds requestId (AttestClean serverUrl sessionId nonce env w.codes)
      ((handleAttest requestId serverUrl sessionId nonce env).run w).1 := by
  by_cases hargs : serverUrl.chars = [] ∨ sessionId.chars = [] ∨ nonce.chars = []
  · have hrun : ((handleAttest requestId serverUrl sessionId nonce env).run w).1 =
        errorPayload 512 (text "serverUrl, sessionId, and nonce are required") >>=
          fun payload => buildResponse 4096 requestId payload := by
      unfold handleAttest
      rw [if_pos hargs]
      rfl
    have hmessage : (text "serverUrl, sessionId, and nonce are required").length ≤ 64 ∧
        Windows.isText (text "serverUrl, sessionId, and nonce are required") = true := by decide +kernel
    rw [hrun]
    exact refusal_responds hid hmessage (by decide) fun hurl hsession hnonce =>
      absurd hargs (not_or.mpr ⟨hurl, not_or.mpr ⟨hsession, hnonce⟩⟩)
  · have hrun : ((handleAttest requestId serverUrl sessionId nonce env).run w).1 =
        attestPayload ((rootHeraldAttest (some serverUrl) (some sessionId) (some nonce) true env.stack
          (attestReply env.httpCode env.received)).run w).1 >>= fun payload => buildResponse 16384 requestId payload := by
      unfold handleAttest
      rw [if_neg hargs]
      rfl
    have hinfo := rootHeraldAttest_info serverUrl sessionId nonce env.stack (attestReply env.httpCode env.received) w.tpm
      w.codes
    change ((rootHeraldAttest _ _ _ _ _ _).run w).1.info = _ at hinfo
    rw [hrun]
    generalize ((rootHeraldAttest (some serverUrl) (some sessionId) (some nonce) true env.stack
      (attestReply env.httpCode env.received)).run w).1 = r at hinfo ⊢
    obtain ⟨hurl, hsession, hnonce⟩ : serverUrl.chars ≠ [] ∧ sessionId.chars ≠ [] ∧ nonce.chars ≠ [] :=
      ⟨fun h => hargs (.inl h), fun h => hargs (.inr (.inl h)), fun h => hargs (.inr (.inr h))⟩
    by_cases hanswered : AttestAnswered nonce env.stack (attestReply env.httpCode env.received) w.codes
    · rw [if_pos hanswered] at hinfo
      have hfits : AttestFits r.info := hinfo ▸
        ⟨List.length_take_le _ _, List.length_take_le _ _, List.length_take_le _ _⟩
      refine (attestPayload_responds hid hfits).congr ?_
      rw [hinfo]
      exact ⟨fun h _ _ _ _ => h, fun h => h hurl hsession hnonce hanswered⟩
    · rw [if_neg hanswered] at hinfo
      have hfits : AttestFits r.info := hinfo ▸ ⟨Nat.zero_le _, Nat.zero_le _, Nat.zero_le _⟩
      refine (attestPayload_responds hid hfits).congr (iff_of_true ?_ fun _ _ _ h => absurd h hanswered)
      rw [hinfo]
      exact ⟨⟨rfl, rfl, rfl, rfl⟩, by decide⟩

theorem handleUnknown_responds (hid : requestId.length ≤ 63) {action : Bytes} (haction : action.length ≤ 63) :
    Responds requestId (Windows.isText action = true) (handleUnknown requestId action) := by
  have hprefix : (text "Unknown action: ").length = 16 ∧ Windows.isText (text "Unknown action: ") = true := by
    decide
  have hlength : (text "Unknown action: " ++ action).length = 16 + action.length := by
    rw [List.length_append, hprefix.1]
  unfold handleUnknown
  rw [List.take_of_length_le (by omega)]
  refine (errorPayload_responds hid ?_ ?_ (by decide)).congr ?_
  · omega
  · omega
  · rw [Windows.isText_append hprefix.2]

/-- What the answer repeats beside the id is text, and the data of an attestation have room for it. -/
def PayloadClean (request : CString) (env : HostEnv) (codes : List Bool) : Prop :=
  let action := (jsonGet request (text "action") 64).chars
  let serverUrl := jsonGet request (text "serverUrl") 2048
  if action = text "status" then Windows.isText (fileDeviceId env.deviceIdFile) = true
  else if action = text "enroll" then EnrollClean serverUrl env codes
  else if action = text "attest" then
    AttestClean serverUrl (jsonGet request (text "sessionId") 64) (jsonGet request (text "nonce") 4096) env codes
  else Windows.isText action = true

theorem answerRequest_responds (request : CString) (env : HostEnv) (w : World) :
    Responds (jsonGet request (text "id") 64).chars (PayloadClean request env w.codes)
      ((answerRequest request env).run w).1 := by
  have hid : (jsonGet request (text "id") 64).chars.length ≤ 63 := List.length_take_le _ _
  unfold answerRequest PayloadClean
  dsimp only
  split_ifs
  · exact handleStatus_responds hid env w
  · exact handleEnroll_responds hid _ env w
  · exact handleAttest_responds hid _ _ _ env w
  · exact handleUnknown_responds hid (List.length_take_le _ _)

end Handlers
end RootHerald.Linux
