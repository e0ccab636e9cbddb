import RootHerald.Linux.AttestBody

/-! The native messaging host on Linux: it reads a request with strstr, calls the driver, and answers
with a JSON text behind its length. -/
namespace RootHerald.Linux
open Lib Json

section Extract

def isBlank (c : UInt8) : Bool := c = ' '.toUInt8 || c = '\t'.toUInt8 || c = '\n'.toUInt8 || c = '\r'.toUInt8

/-- The character behind a backslash. -/
def unescapeChar (c : UInt8) : UInt8 :=
  if c = 'n'.toUInt8 then '\n'.toUInt8 else if c = 't'.toUInt8 then '\t'.toUInt8 else c

/-- Up to the closing mark, or the end. -/
def stringValue : Bytes → Bytes
  | [] => []
  | c :: rest =>
    if c = quotationMark then []
    else if c = reverseSolidus then
      match rest with
      | [] => [c]
      | d :: rest => unescapeChar d :: stringValue rest
    else c :: stringValue rest

/-- A number, bool, null or nested value, up to the end of what encloses it. -/
def nestedValue (depth : Nat) : Bytes → Bytes
  | [] => []
  | c :: rest =>
    if c = openBrace ∨ c = openBracket then c :: nestedValue (depth + 1) rest
    else if c = closeBrace ∨ c = closeBracket then
      if depth = 0 then [] else c :: nestedValue (depth - 1) rest
    else if depth = 0 ∧ c = comma then []
    else c :: nestedValue depth rest

/-- The quoted key and its terminator fit the search buffer up to this length. -/
def searchLimit : Nat := 256

/-- The value behind the first occurrence of the quoted key. -/
def findValue (json key : Bytes) : Bytes :=
  let search := quotationMark :: (key ++ [quotationMark])
  if searchLimit ≤ search.length then [] else
  match indexOf search json with
  | none => []
  | some pos =>
    match (json.drop (pos + search.length)).dropWhile isBlank with
    | [] => []
    | c :: rest =>
      if c ≠ colon then []
      else
        match rest.dropWhile isBlank with
        | [] => []
        | c :: rest => if c = quotationMark then stringValue rest else nestedValue 0 (c :: rest)

private theorem mem_stringValue {src : Bytes} (h : 0 ∉ src) : 0 ∉ stringValue src := by
  have hunescape : ∀ c : UInt8, c ≠ 0 → 0 ≠ unescapeChar c := by
    intro c hc
    unfold unescapeChar
    split_ifs
    · decide
    · decide
    · exact hc.symm
  fun_induction stringValue src with
  | case1 => exact h
  | case2 => exact List.not_mem_nil
  | case3 => exact h
  | case4 d rest _ ih =>
    simp only [List.mem_cons, not_or] at h ⊢
    exact ⟨hunescape d (Ne.symm h.2.1), ih h.2.2⟩
  | case5 c rest _ _ ih =>
    simp only [List.mem_cons, not_or] at h ⊢
    exact ⟨h.1, ih h.2⟩

private theorem mem_nestedValue {depth : Nat} {src : Bytes} (h : 0 ∉ src) : 0 ∉ nestedValue depth src := by
  fun_induction nestedValue depth src with
  | case1 => exact h
  | case2 _ c rest _ ih =>
    simp only [List.mem_cons, not_or] at h ⊢
    exact ⟨h.1, ih h.2⟩
  | case3 => exact List.not_mem_nil
  | case4 _ c rest _ _ _ ih =>
    simp only [List.mem_cons, not_or] at h ⊢
    exact ⟨h.1, ih h.2⟩
  | case5 => exact List.not_mem_nil
  | case6 _ c rest _ _ _ ih =>
    simp only [List.mem_cons, not_or] at h ⊢
    exact ⟨h.1, ih h.2⟩

theorem mem_findValue {json key : Bytes} (h : 0 ∉ json) : 0 ∉ findValue json key := by
  unfold findValue
  dsimp only
  split_ifs
  · exact List.not_mem_nil
  split
  · exact List.not_mem_nil
  · rename_i pos _
    have hdrop : 0 ∉ (json.drop (pos + (quotationMark :: (key ++ [quotationMark])).length)).dropWhile isBlank :=
      fun hmem => h (List.drop_subset _ _ ((List.dropWhile_suffix _).subset hmem))
    split
    · exact List.not_mem_nil
    · rename_i c rest heq
      rw [heq] at hdrop
      split_ifs
      · exact List.not_mem_nil
      · have hrest : 0 ∉ rest.dropWhile isBlank := fun hmem =>
          hdrop (List.mem_cons_of_mem _ ((List.dropWhile_suffix _).subset hmem))
        split
        · exact List.not_mem_nil
        · rename_i c' rest' heq'
          rw [heq'] at hrest
          split_ifs
          · exact mem_stringValue fun hmem => hrest (List.mem_cons_of_mem _ hmem)
          · exact mem_nestedValue hrest

private theorem stringValue_length (src : Bytes) : (stringValue src).length ≤ src.length := by
  fun_induction stringValue src with
  | case1 => exact le_refl _
  | case2 => exact Nat.zero_le _
  | case3 => exact le_refl _
  | case4 d rest _ ih =>
    simp only [List.length_cons]
    omega
  | case5 c rest _ _ ih =>
    simp only [List.length_cons]
    omega

private theorem nestedValue_length (depth : Nat) (src : Bytes) : (nestedValue depth src).length ≤ src.length := by
  fun_induction nestedValue depth src with
  | case1 => exact le_refl _
  | case2 _ c rest _ ih => exact Nat.succ_le_succ ih
  | case3 => exact Nat.zero_le _
  | case4 _ c rest _ _ _ ih => exact Nat.succ_le_succ ih
  | case5 => exact Nat.zero_le _
  | case6 _ c rest _ _ _ ih => exact Nat.succ_le_succ ih

private theorem dropWhile_length_le (src : Bytes) : (src.dropWhile isBlank).length ≤ src.length :=
  (List.dropWhile_suffix _).length_le

theorem findValue_length (json key : Bytes) : (findValue json key).length ≤ json.length := by
  unfold findValue
  dsimp only
  split_ifs
  · exact Nat.zero_le _
  split
  · exact Nat.zero_le _
  · rename_i pos _
    have hdrop := (dropWhile_length_le (json.drop (pos + (quotationMark :: (key ++ [quotationMark])).length))).trans
      (List.drop_suffix _ _).length_le
    split
    · exact Nat.zero_le _
    · rename_i c rest heq
      rw [heq, List.length_cons] at hdrop
      split_ifs
      · exact Nat.zero_le _
      · have hrest := dropWhile_length_le rest
        split
        · exact Nat.zero_le _
        · rename_i c' rest' heq'
          rw [heq', List.length_cons] at hrest
          split_ifs
          · have hvalue := stringValue_length rest'
            omega
          · have hvalue := nestedValue_length 0 (c' :: rest')
            rw [List.length_cons] at hvalue
            omega

/-- The value, cut to the buffer. -/
def jsonGet (json : CString) (key : Bytes) (dstLen : Nat) : CString where
  chars := (findValue json.chars key).take (dstLen - 1)
  noNul hmem := mem_findValue json.noNul (List.take_subset _ _ hmem)
  length_lt := by
    rw [List.length_take]
    exact (Nat.min_le_right _ _).trans_lt ((findValue_length _ _).trans_lt json.length_lt)

/-- What a buffer holds as a string. -/
def cString (buf : Bytes) (h : buf.length < 2 ^ 64) : CString where
  chars := buf.takeWhile (· ≠ 0)
  noNul hmem := absurd (List.mem_takeWhile_imp hmem) (by decide)
  length_lt := (List.takeWhile_prefix _).length_le.trans_lt h

end Extract

section Replies

def responseSize : Nat := 8192

/-- A response buffer after write_callback got the server's bytes. -/
def responseText (received : Bytes) : CString :=
  cString (received.take (responseSize - 1)) (by
    rw [List.length_take]
    exact (Nat.min_le_left _ _).trans_lt (by decide))

def enrollReply (httpCode : Int) (received : Bytes) : EnrollReply :=
  let response := responseText received
  ⟨httpCode, (jsonGet response (text "deviceId") 64).chars, (jsonGet response (text "credentialBlob") 4096).chars,
    (jsonGet response (text "encryptedSecret") 4096).chars⟩

def attestReply (httpCode : Int) (received : Bytes) : AttestReply :=
  let response := responseText received
  ⟨httpCode, (jsonGet response (text "status") 32).chars, (jsonGet response (text "authorizationCode") 128).chars,
    (jsonGet response (text "redirectUri") 2048).chars, (jsonGet response (text "reason") 512).chars⟩

end Replies

section Handlers

def boolText (b : Bool) : Bytes := if b then text "true" else text "false"

def buildResponse (size : Nat) (requestId payload : Bytes) : Checked Bytes :=
  jsonObject size (.string (text "id") requestId) [.string (text "type") (text "response"), .raw (text "payload") payload]

/-- The payload of a request that is refused. -/
def errorPayload (size : Nat) (message : Bytes) : Checked Bytes :=
  jsonObject size (.raw (text "success") (boolText false)) [.string (text "error") message]

def statusPayload (r : RootHeraldResult × DeviceStatus) : Checked Bytes := do
  let data ← jsonObject 1024
    (.string (text "status") (if r.2.isEnrolled then text "enrolled" else text "not_enrolled"))
    -- the field is a string up to its terminator
    [.string (text "deviceId") (r.2.deviceId.takeWhile (· ≠ 0)), .string (text "platform") r.2.platform,
      .raw (text "hasTpm") (boolText r.2.hasTpm)]
  jsonObject 2048 (.raw (text "success") (boolText (r.1 = .ok))) [.raw (text "data") data]

def enrollPayload (r : EnrollResult) : Checked Bytes := do
  let data ← jsonObject 256 (.string (text "deviceId") r.info.deviceId) []
  jsonObject 1024 (.raw (text "success") (boolText (r.status = .ok))) [.raw (text "data") data]

def attestPayload (r : AttestResult) : Checked Bytes := do
  let data ← jsonObject 4096 (.string (text "authorizationCode") r.info.authorizationCode)
    [.string (text "status") r.info.status, .string (text "redirectUri") r.info.redirectUri]
  jsonObject 8192 (.raw (text "success") (boolText (r.status = .ok)))
    [.raw (text "data") data, .string (text "error") r.info.failureReason]

/-- What the driver and its server answer during a request. -/
structure HostEnv where
  httpCode : Int
  received : Bytes
  activateCode : Int
  /-- What the nonce buffer holds when RootHeraldAttest begins. -/
  stack : Bytes
  available : Bool
  deviceIdFile : Option Bytes

def handleStatus (requestId : Bytes) (env : HostEnv) : Esys (Checked Bytes) := do
  let r ← rootHeraldGetStatus true env.available env.deviceIdFile
  return do buildResponse 4096 requestId (← statusPayload r)

/-- The payload of the answer, and the HTTP code of the activation, if it was posted. -/
structure EnrollAnswer where
  payload : Checked Bytes
  activation : Option Int := none

def enrollAnswer (serverUrl : CString) (env : HostEnv) : Esys EnrollAnswer := do
  if serverUrl.chars = [] then return { payload := errorPayload 256 (text "serverUrl is required") }
  let r ← rootHeraldEnroll (some serverUrl) true (enrollReply env.httpCode env.received) env.activateCode
  return { payload := enrollPayload r, activation := r.activation }

def handleEnroll (requestId : Bytes) (serverUrl : CString) (env : HostEnv) : Esys (Checked Bytes) := do
  let answer ← enrollAnswer serverUrl env
  return do buildResponse 4096 requestId (← answer.payload)

def handleAttest (requestId : Bytes) (serverUrl sessionId nonce : CString) (env : HostEnv) : Esys (Checked Bytes) := do
  if serverUrl.chars = [] ∨ sessionId.chars = [] ∨ nonce.chars = [] then
    return do buildResponse 4096 requestId (← errorPayload 512 (text "serverUrl, sessionId, and nonce are required"))
  let r ← rootHeraldAttest (some serverUrl) (some sessionId) (some nonce) true env.stack
    (attestReply env.httpCode env.received)
  return do buildResponse 16384 requestId (← attestPayload r)

def handleUnknown (requestId action : Bytes) : Checked Bytes := do
  -- cut to the 256 bytes of error_msg
  buildResponse 4096 requestId (← errorPayload 512 ((text "Unknown action: " ++ action).take 255))

/-- The response to a message. -/
def answerRequest (request : CString) (env : HostEnv) : Esys (Checked Bytes) := do
  let action := (jsonGet request (text "action") 64).chars
  let serverUrl := jsonGet request (text "serverUrl") 2048
  let requestId := (jsonGet request (text "id") 64).chars
  let sessionId := jsonGet request (text "sessionId") 64
  let nonce := jsonGet request (text "nonce") 4096
  if action = text "status" then handleStatus requestId env
  else if action = text "enroll" then handleEnroll requestId serverUrl env
  else if action = text "attest" then handleAttest requestId serverUrl sessionId nonce env
  else return handleUnknown requestId action

end Handlers

section Messages

/-- 1 MB. -/
def messageLimit : Nat := 1024 * 1024

/-- The first message of what stands on stdin, as the string the host sees, and the rest. -/
def readMessage (stdin : Bytes) : Option (CString × Bytes) :=
  match stdin with
  | b₀ :: b₁ :: b₂ :: b₃ :: rest =>
    let length := (le32 b₀ b₁ b₂ b₃).toNat
    if h : length ≤ messageLimit ∧ length ≤ rest.length then
      some (cString (rest.take length) (by
        rw [List.length_take]
        exact (Nat.min_le_left _ _).trans_lt (h.1.trans_lt (by decide))), rest.drop length)
    else none
  | _ => none

/-- The length in front of the text. -/
def writeMessage (message : Bytes) : Bytes := bytes32 (UInt32.ofNat message.length) ++ message

/-- One turn of the loop in main: the frame it writes, and what it leaves on stdin; none where the loop
ends. -/
def hostTurn (stdin : Bytes) (env : HostEnv) : Esys (Option (Checked Bytes × Bytes)) := do
  match readMessage stdin with
  | none => return none
  | some (request, stdin) =>
    let response ← answerRequest request env
    return some (response.map writeMessage, stdin)

end Messages
end RootHerald.Linux
