import RootHerald.Linux.HostEnrollment
import RootHerald.MacOS.NativeHost

/-! On both platforms the native host reports success for a device that was never activated. -/
namespace RootHerald
open Lib

/-- A server that answers 201 with a challenge. -/
def challengeEnv : Linux.HostEnv where
  httpCode := 201
  received := text "\x7b\"deviceId\":\"d\",\"credentialBlob\":\"AAAA\",\"encryptedSecret\":\"AAAA\"\x7d"
  activateCode := 200
  stack := []
  available := true
  deviceIdFile := none

def challengeReply : MacOS.HttpReply MacOS.EnrollReply where
  statusCode := 201
  dictionary := some ⟨some (text "d"), some (text "AAAA"), some (text "AAAA")⟩

/-- An enclave that does what it is asked. -/
def workingEnclave : MacOS.Security where
  available := true
  found := none
  access := true
  creates := true
  exports := true
  signs := true

end RootHerald
