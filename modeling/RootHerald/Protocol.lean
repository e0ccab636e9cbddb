import RootHerald.Lib.Bytes

/-! Result codes and outputs of the driver interface, shared by the platforms. -/
namespace RootHerald
open Lib

inductive RootHeraldResult where
  | ok
  | noTpm
  | enrollmentFailed
  | attestationFailed
  | network
  | internal
  | notEnrolled
  | invalidParam
  | alreadyEnrolled
  | elevationRequired
  deriving DecidableEq, Repr

structure EnrollmentInfo where
  deviceId : Bytes := []
  credentialBlob : Bytes := []
  encryptedSecret : Bytes := []
  deriving DecidableEq

structure AttestationInfo where
  sessionId : Bytes := []
  status : Bytes := []
  authorizationCode : Bytes := []
  redirectUri : Bytes := []
  failureReason : Bytes := []
  deriving DecidableEq

structure DeviceStatus where
  isEnrolled : Bool := false
  deviceId : Bytes := []
  platform : Bytes := []
  hasTpm : Bool := false
  deriving DecidableEq

end RootHerald
