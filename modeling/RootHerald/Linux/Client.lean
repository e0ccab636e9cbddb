import RootHerald.Linux.Base64Codec
import RootHerald.Linux.TpmEsapi
import RootHerald.Protocol

/-! The driver calls of the Linux client. A server's reply is the HTTP code and the fields json_get
finds in the body. -/
namespace RootHerald.Linux
open Lib

/-- A NUL-terminated string the caller passes. -/
structure CString where
  chars : Bytes
  noNul : 0 ∉ chars
  length_lt : chars.length < 2 ^ 64

structure EnrollReply where
  httpCode : Int
  deviceId : Bytes
  credentialBlob : Bytes
  encryptedSecret : Bytes

/-- Status, out_info, the key whose public area was posted as akPublicArea, and the HTTP code of the
activation, if it was posted. -/
structure EnrollResult where
  status : RootHeraldResult
  info : EnrollmentInfo := {}
  posted : Option Key := none
  activation : Option Int := none
  deriving DecidableEq

/-- Size of the buffers for the decoded blob and secret. -/
def decodedSize : Nat := 2048

/-- What base64_decode returns for such a buffer, whatever it holds. -/
def decodedLen (src : Bytes) : Nat := (base64Decode src (List.replicate decodedSize 0)).1

/-- Steps 8 to 12, once the enrollment body holds the public area of ak. -/
def postEnrollment (tpm : TpmContext) (ak : Key) (reply : EnrollReply) (activateCode : Int) : Esys EnrollResult := do
  if reply.httpCode ≠ 201 ∧ reply.httpCode ≠ 200 then
    tpmClose tpm
    return { status := .enrollmentFailed, posted := some ak }
  let partialInfo : EnrollmentInfo := ⟨reply.deviceId, reply.credentialBlob, reply.encryptedSecret⟩
  if reply.deviceId = [] ∨ reply.credentialBlob = [] ∨ reply.encryptedSecret = [] then
    tpmClose tpm
    if reply.deviceId ≠ [] then return { status := .ok, info := partialInfo, posted := some ak }
    return { status := .enrollmentFailed, posted := some ak }
  if ← tpmActivateCredential tpm (decodedLen reply.credentialBlob) (decodedLen reply.encryptedSecret) then
    tpmClose tpm
    if activateCode ≠ 200 then
      return { status := .enrollmentFailed, posted := some ak, activation := some activateCode }
    return { status := .ok, info := { deviceId := reply.deviceId }, posted := some ak, activation := some activateCode }
  else
    -- activation failed: partial success
    tpmClose tpm
    return { status := .ok, info := partialInfo, posted := some ak }

def rootHeraldEnroll (serverUrl : Option CString) (outInfo : Bool) (reply : EnrollReply) (activateCode : Int) :
    Esys EnrollResult := do
  if serverUrl.isNone ∨ ¬ outInfo then return { status := .invalidParam }
  match ← tpmOpen with
  | none => return { status := .noTpm }
  | some tpm =>
    let (ekPub, tpm) ← tpmReadEkPub tpm
    if ekPub.isNone then
      tpmClose tpm
      return { status := .noTpm }
    let (created, tpm) ← tpmCreateAk tpm
    if ¬ created then
      tpmClose tpm
      return { status := .enrollmentFailed }
    match ← tpmGetAkPub tpm with
    | none =>
      tpmClose tpm
      return { status := .enrollmentFailed }
    | some ak =>
      match ← tpmGetAkName tpm with
      | none =>
        tpmClose tpm
        return { status := .enrollmentFailed }
      | some _akName => postEnrollment tpm ak reply activateCode

structure AttestReply where
  httpCode : Int
  status : Bytes
  authorizationCode : Bytes
  redirectUri : Bytes
  reason : Bytes

/-- Status, out_info, the call of Esys_Quote, if it was reached, and whether a body was posted. -/
structure AttestResult where
  status : RootHeraldResult
  info : AttestationInfo := {}
  quote : Option QuoteCall := none
  posted : Bool := false
  deriving DecidableEq

/-- Size of the nonce buffer. -/
def nonceSize : Nat := 256

/-- Steps 2 to 9, with the first nonceLen bytes of the nonce buffer. -/
def attestNonce (sessionId nonce : Bytes) (nonceLen : Nat) (reply : AttestReply) : Esys AttestResult := do
  match ← tpmOpen with
  | none => return { status := .noTpm }
  | some tpm =>
    let (created, tpm) ← tpmCreateAk tpm
    if ¬ created then
      tpmClose tpm
      return { status := .attestationFailed }
    let (quoted, quote) ← tpmQuote tpm nonce nonceLen
    if ¬ quoted then
      tpmClose tpm
      return { status := .attestationFailed, quote }
    if reply.httpCode ≠ 200 then
      tpmClose tpm
      return { status := .attestationFailed, quote, posted := true }
    let info := ⟨sessionId.take 63, reply.status, reply.authorizationCode, reply.redirectUri, reply.reason⟩
    tpmClose tpm
    if reply.status = text "verified" then return { status := .ok, info, quote, posted := true }
    return { status := .attestationFailed, info, quote, posted := true }

/-- stack is what the nonce buffer holds when the call begins. -/
def rootHeraldAttest (serverUrl sessionId nonceB64 : Option CString) (outInfo : Bool) (stack : Bytes)
    (reply : AttestReply) : Esys AttestResult :=
  match serverUrl, sessionId, nonceB64 with
  | some _, some sessionId, some nonceB64 =>
    if ¬ outInfo then return { status := .invalidParam }
    else
      let (nonceLen, nonce) := base64Decode nonceB64.chars stack
      if nonceLen = 0 then return { status := .invalidParam }
      else attestNonce sessionId.chars nonce nonceLen reply
  | _, _, _ => return { status := .invalidParam }

/-- available is whether a TPM device node opens, deviceIdFile what the device_id file holds. -/
def rootHeraldGetStatus (outStatus available : Bool) (deviceIdFile : Option Bytes) :
    Esys (RootHeraldResult × DeviceStatus) := do
  if ¬ outStatus then return (.invalidParam, {})
  let status : DeviceStatus := match deviceIdFile with
    | none => { platform := text "linux" }
    | some content =>
      { isEnrolled := true
        deviceId := ((content.take 63).reverse.dropWhile fun ch => ch = '\n'.toUInt8 || ch = '\r'.toUInt8).reverse
        platform := text "linux" }
  if ¬ available then return (.ok, status)
  match ← tpmOpen with
  | none => return (.ok, status)
  | some tpm =>
    tpmClose tpm
    return (.ok, { status with hasTpm := true })

end RootHerald.Linux
