import RootHerald.Linux.NativeHost

/-! The texts of the host's answers, and the buffers that have room for them. -/
namespace RootHerald.Linux
open Lib Json

section Texts

def errorText (message : Bytes) : Bytes :=
  objectText ([.raw (text "success") (boolText false), .string (text "error") message].map Entry.text)

def statusData (status : DeviceStatus) : Bytes :=
  objectText ([.string (text "status") (if status.isEnrolled then text "enrolled" else text "not_enrolled"),
    .string (text "deviceId") (status.deviceId.takeWhile (· ≠ 0)), .string (text "platform") status.platform,
    .raw (text "hasTpm") (boolText status.hasTpm)].map Entry.text)

def statusText (r : RootHeraldResult × DeviceStatus) : Bytes :=
  objectText ([.raw (text "success") (boolText (r.1 = .ok)), .raw (text "data") (statusData r.2)].map Entry.text)

def enrollData (info : EnrollmentInfo) : Bytes :=
  objectText ([.string (text "deviceId") info.deviceId].map Entry.text)

def enrollText (r : EnrollResult) : Bytes :=
  objectText ([.raw (text "success") (boolText (r.status = .ok)), .raw (text "data") (enrollData r.info)].map Entry.text)

def attestData (info : AttestationInfo) : Bytes :=
  objectText ([.string (text "authorizationCode") info.authorizationCode, .string (text "status") info.status,
    .string (text "redirectUri") info.redirectUri].map Entry.text)

/-- The payload around any data. -/
def attestText (ok : Bool) (data failureReason : Bytes) : Bytes :=
  objectText ([.raw (text "success") (boolText ok), .raw (text "data") data,
    .string (text "error") failureReason].map Entry.text)

def responseBody (requestId payload : Bytes) : Bytes :=
  objectText ([.string (text "id") requestId, .string (text "type") (text "response"),
    .raw (text "payload") payload].map Entry.text)

end Texts

section Fits

private theorem keys_length : (text "success").length = 7 ∧ (text "error").length = 5 ∧ (text "data").length = 4 ∧
    (text "status").length = 6 ∧ (text "deviceId").length = 8 ∧ (text "platform").length = 8 ∧
    (text "hasTpm").length = 6 ∧ (text "authorizationCode").length = 17 ∧ (text "redirectUri").length = 11 ∧
    (text "id").length = 2 ∧ (text "type").length = 4 ∧ (text "payload").length = 7 := by
  decide +kernel

private theorem values_length : (text "enrolled").length = 8 ∧ (text "not_enrolled").length = 12 ∧
    (text "linux").length = 5 ∧ (text "response").length = 8 := by
  decide

theorem boolText_length (b : Bool) : (boolText b).length ≤ 5 := by
  have hlengths : (text "true").length = 4 ∧ (text "false").length = 5 := by decide
  unfold boolText
  split_ifs <;> omega

theorem Entry.string_length (key value : Bytes) : (Entry.string key value).text.length ≤ key.length + 2 * value.length + 5 := by
  have hle := quoted_length_le value
  rw [Entry.text, memberText_length]
  omega

theorem Entry.raw_length (key rawValue : Bytes) : (Entry.raw key rawValue).text.length = key.length + rawValue.length + 3 :=
  memberText_length key rawValue

theorem errorText_length (message : Bytes) : (errorText message).length ≤ 2 * message.length + 32 := by
  obtain ⟨hsuccess, herror, -⟩ := keys_length
  have hfirst := Entry.raw_length (text "success") (boolText false)
  have hbool := boolText_length false
  have hmessage := Entry.string_length (text "error") message
  rw [errorText, objectText_length]
  simp only [List.map_cons, List.map_nil, List.sum_cons, List.sum_nil]
  omega

theorem errorPayload_eq {size : Nat} {message : Bytes} (h : 2 * message.length + 40 ≤ size) :
    errorPayload size message = .ok (errorText message) := by
  refine jsonObject_fits ((errorText_length message).trans_lt ?_)
  omega

theorem enrollData_length {info : EnrollmentInfo} (h : info.deviceId.length ≤ 63) : (enrollData info).length ≤ 141 := by
  obtain ⟨-, -, -, -, hdeviceId, -⟩ := keys_length
  have hid := Entry.string_length (text "deviceId") info.deviceId
  rw [enrollData, objectText_length]
  simp only [List.map_nil, List.sum_nil]
  omega

theorem enrollText_length {r : EnrollResult} (h : r.info.deviceId.length ≤ 63) : (enrollText r).length ≤ 170 := by
  obtain ⟨hsuccess, -, hdata, -⟩ := keys_length
  have hfirst := Entry.raw_length (text "success") (boolText (r.status = .ok))
  have hbool := boolText_length (r.status = .ok)
  have hinfo := Entry.raw_length (text "data") (enrollData r.info)
  have hle := enrollData_length h
  rw [enrollText, objectText_length]
  simp only [List.map_cons, List.map_nil, List.sum_cons, List.sum_nil]
  omega

/-- A device id of the size of the field always fits. -/
theorem enrollPayload_eq {r : EnrollResult} (h : r.info.deviceId.length ≤ 63) :
    enrollPayload r = .ok (enrollText r) := by
  have hdata : jsonObject 256 (.string (text "deviceId") r.info.deviceId) [] = .ok (enrollData r.info) :=
    jsonObject_fits ((enrollData_length h).trans_lt (by decide))
  unfold enrollPayload
  rw [hdata, ok_bind]
  exact jsonObject_fits ((enrollText_length h).trans_lt (by decide))

theorem statusData_length {status : DeviceStatus} (hid : status.deviceId.length ≤ 63)
    (hplatform : status.platform.length ≤ 15) : (statusData status).length ≤ 260 := by
  obtain ⟨-, -, -, hstatus, hdeviceId, hplatformKey, hhasTpm, -⟩ := keys_length
  obtain ⟨henrolled, hnotEnrolled, -⟩ := values_length
  have hfirst := Entry.string_length (text "status") (if status.isEnrolled then text "enrolled" else text "not_enrolled")
  have hvalue : (if status.isEnrolled then text "enrolled" else text "not_enrolled").length ≤ 12 := by
    split_ifs <;> omega
  have hidText := Entry.string_length (text "deviceId") (status.deviceId.takeWhile (· ≠ 0))
  have hcut := (List.takeWhile_prefix (l := status.deviceId) (· ≠ 0)).length_le
  have hplatformText := Entry.string_length (text "platform") status.platform
  have htpm := Entry.raw_length (text "hasTpm") (boolText status.hasTpm)
  have hbool := boolText_length status.hasTpm
  rw [statusData, objectText_length]
  simp only [List.map_cons, List.map_nil, List.sum_cons, List.sum_nil]
  omega

theorem statusText_length {r : RootHeraldResult × DeviceStatus} (hid : r.2.deviceId.length ≤ 63)
    (hplatform : r.2.platform.length ≤ 15) : (statusText r).length ≤ 290 := by
  obtain ⟨hsuccess, -, hdata, -⟩ := keys_length
  have hfirst := Entry.raw_length (text "success") (boolText (r.1 = .ok))
  have hbool := boolText_length (r.1 = .ok)
  have hinfo := Entry.raw_length (text "data") (statusData r.2)
  have hle := statusData_length hid hplatform
  rw [statusText, objectText_length]
  simp only [List.map_cons, List.map_nil, List.sum_cons, List.sum_nil]
  omega

theorem statusPayload_eq {r : RootHeraldResult × DeviceStatus} (hid : r.2.deviceId.length ≤ 63)
    (hplatform : r.2.platform.length ≤ 15) : statusPayload r = .ok (statusText r) := by
  have hdata := jsonObject_fits ((statusData_length hid hplatform).trans_lt (by decide : 260 < 1024))
  unfold statusPayload
  rw [hdata, ok_bind]
  exact jsonObject_fits ((statusText_length hid hplatform).trans_lt (by decide))

/-- The texts of the server that fit whatever they hold. -/
structure AttestFits (info : AttestationInfo) : Prop where
  authorizationCode : info.authorizationCode.length ≤ 127
  status : info.status.length ≤ 31
  failureReason : info.failureReason.length ≤ 511

/-- The buffer of the data reaches beyond the key of the last value. -/
theorem lastHead_length {info : AttestationInfo} (h : AttestFits info) :
    (lastHead (.string (text "authorizationCode") info.authorizationCode) [.string (text "status") info.status]
      (text "redirectUri")).length < 4096 := by
  obtain ⟨-, -, -, hstatusKey, -, -, -, hcodeKey, huriKey, -⟩ := keys_length
  have hcode := Entry.string_length (text "authorizationCode") info.authorizationCode
  have hstatus := Entry.string_length (text "status") info.status
  have hcodeLength := h.authorizationCode
  have hstatusLength := h.status
  simp only [lastHead, tailText, List.flatMap_cons, List.flatMap_nil, List.length_append, List.length_cons, List.length_nil]
  omega

theorem attestText_length {ok : Bool} {data failureReason : Bytes} (hdata : data.length ≤ 4095)
    (hreason : failureReason.length ≤ 511) : (attestText ok data failureReason).length ≤ 5160 := by
  obtain ⟨hsuccess, herror, hdataKey, -⟩ := keys_length
  have hfirst := Entry.raw_length (text "success") (boolText ok)
  have hbool := boolText_length ok
  have hinfo := Entry.raw_length (text "data") data
  have herrorText := Entry.string_length (text "error") failureReason
  rw [attestText, objectText_length]
  simp only [List.map_cons, List.map_nil, List.sum_cons, List.sum_nil]
  omega

/-- Whatever the data buffer holds, the payload has room for it. -/
theorem attestPayload_eq {r : AttestResult} {data : Bytes} (hreason : r.info.failureReason.length ≤ 511)
    (hdata : jsonObject 4096 (.string (text "authorizationCode") r.info.authorizationCode)
      [.string (text "status") r.info.status, .string (text "redirectUri") r.info.redirectUri] = .ok data)
    (hlength : data.length ≤ 4095) :
    attestPayload r = .ok (attestText (r.status = .ok) data r.info.failureReason) := by
  unfold attestPayload
  rw [hdata, ok_bind]
  exact jsonObject_fits ((attestText_length hlength hreason).trans_lt (by decide))

theorem responseBody_length {requestId : Bytes} (hid : requestId.length ≤ 63) (payload : Bytes) :
    (responseBody requestId payload).length ≤ payload.length + 172 := by
  obtain ⟨-, -, -, -, -, -, -, -, -, hidKey, htype, hpayload⟩ := keys_length
  obtain ⟨-, -, -, hresponse⟩ := values_length
  have hfirst := Entry.string_length (text "id") requestId
  have htypeText := Entry.string_length (text "type") (text "response")
  have hpayloadText := Entry.raw_length (text "payload") payload
  rw [responseBody, objectText_length]
  simp only [List.map_cons, List.map_nil, List.sum_cons, List.sum_nil]
  omega

theorem buildResponse_eq {size : Nat} {requestId payload : Bytes} (hid : requestId.length ≤ 63)
    (h : payload.length + 172 < size) : buildResponse size requestId payload = .ok (responseBody requestId payload) :=
  jsonObject_fits ((responseBody_length hid payload).trans_lt h)

end Fits
end RootHerald.Linux
