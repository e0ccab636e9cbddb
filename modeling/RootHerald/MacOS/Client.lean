import RootHerald.MacOS.SecureEnclave
import RootHerald.Protocol

/-! The driver calls of the macOS client. A server's reply is the status code and the members of the
body that the driver looks up, each a string or absent. -/
namespace RootHerald.MacOS
open Lib

/-- What HttpPostJson returns: none for the dictionary is nil. -/
structure HttpReply (α : Type) where
  statusCode : Int
  dictionary : Option α

/-- The members of the reply to the enrollment, as UTF8String has them. -/
structure EnrollReply where
  deviceId : Option Bytes
  credBlob : Option Bytes
  encSecret : Option Bytes

/-- A buffer of destSize bytes, as the C string it then holds. -/
def safeCopy (destSize : Nat) (src : Bytes) : Bytes := (src.takeWhile (· ≠ 0)).take (destSize - 1)

def deviceIdSize : Nat := 64
def credentialBlobSize : Nat := 4096
def encryptedSecretSize : Nat := 4096

/-- Status, out_info, and the status code of the activation, if it was posted. -/
structure EnrollResult where
  status : RootHeraldResult
  info : EnrollmentInfo := {}
  activation : Option Int := none
  deriving DecidableEq

/-- Steps 4 to 7. decodes is whether encryptedSecret is base64 for NSData. -/
def postEnrollment (sec : Security) (decodes : Bool) (reply : EnrollReply) (activate : HttpReply Unit) :
    EnrollResult :=
  match reply.deviceId, reply.credBlob, reply.encSecret with
  | some deviceId, some credBlob, some encSecret =>
    if ¬ decodes then { status := .enrollmentFailed }
    else if ¬ sec.signs then { status := .enrollmentFailed }
    else if activate.dictionary.isNone ∨ activate.statusCode ≠ 200 then
      -- partial enrollment
      { status := .ok
        info := ⟨safeCopy deviceIdSize deviceId, safeCopy credentialBlobSize credBlob,
          safeCopy encryptedSecretSize encSecret⟩
        activation := some activate.statusCode }
    else
      { status := .ok
        info := { deviceId := safeCopy deviceIdSize deviceId }
        activation := some activate.statusCode }
  | _, _, _ => { status := .enrollmentFailed }

def rootHeraldEnroll (serverUrl outInfo : Bool) (sec : Security) (decodes : Bool) (enroll : HttpReply EnrollReply)
    (activate : HttpReply Unit) : StateM Keychain EnrollResult := do
  if ¬ serverUrl ∨ ¬ outInfo then return { status := .invalidParam }
  if ¬ isAvailable sec then return { status := .noTpm }
  match ← getOrCreateDeviceKey sec with
  | none => return { status := .internal }
  | some _privateKey =>
    if ¬ sec.exports then return { status := .internal }
    match enroll.dictionary with
    | none => return { status := .enrollmentFailed }
    | some reply =>
      if enroll.statusCode ≠ 201 then return { status := .enrollmentFailed }
      return postEnrollment sec decodes reply activate

def rootHeraldGetStatus (outStatus : Bool) (sec : Security) : StateM Keychain (RootHeraldResult × DeviceStatus) := do
  if ¬ outStatus then return (.invalidParam, {})
  let status : DeviceStatus := { platform := text "macos" }
  if ¬ isAvailable sec then return (.ok, status)
  match ← getOrCreateDeviceKey sec with
  | none => return (.ok, status)
  | some _key => return (.ok, { status with isEnrolled := true })

end RootHerald.MacOS
