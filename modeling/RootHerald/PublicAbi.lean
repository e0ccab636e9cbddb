import RootHerald.Lib.Bytes

/-! The public ABI: status codes, out pointers, and the builds that answer without a TPM. -/
namespace RootHerald
open Lib

inductive RootHeraldStatus where
  | ok
  | invalidArg
  | tpmUnavailable
  | network
  | server
  | quotaExceeded
  | notEnrolled
  | elevationRequired
  | internal
  deriving DecidableEq, Repr

structure RootHeraldClient where
  mockTpm : Bool := false
  deriving DecidableEq

/-- A char** argument: NULL, or a variable with what it points to. -/
abbrev OutPtr := Option (Option Bytes)

/-- *out = value, behind a NULL check. -/
def OutPtr.assign (out : OutPtr) (value : Option Bytes) : OutPtr := out.map fun _ => value

/-- The status, and the out pointer as the call leaves it. -/
structure Returned where
  status : RootHeraldStatus
  out : OutPtr
  deriving DecidableEq

/-- NULL or empty. -/
def isBlank (s : Option Bytes) : Bool := s.getD [] = []

/-- A malloc'd copy of the text. -/
def emitHeapJson (json : Bytes) (allocated : Bool) (out : OutPtr) : Returned :=
  if allocated then { status := .ok, out := out.assign (some json) } else { status := .internal, out }

section Unimplemented

/-- Arguments are checked behind *out = NULL. -/
def notImplemented (valid : Bool) (out : OutPtr) : Returned :=
  let out := out.assign none
  if valid && out.isSome then { status := .internal, out } else { status := .invalidArg, out }

def linuxEnrollBegin (client : Option RootHeraldClient) (out : OutPtr) : Returned := notImplemented client.isSome out

def linuxEnrollComplete (client : Option RootHeraldClient) (challengeJson : Option Bytes) (out : OutPtr) : Returned :=
  notImplemented (client.isSome && !isBlank challengeJson) out

def linuxCollectEvidence (nonceB64 : Option Bytes) (out : OutPtr) : Returned := notImplemented (!isBlank nonceB64) out

def macosEnrollBegin (client : Option RootHeraldClient) (out : OutPtr) : Returned := notImplemented client.isSome out

def macosEnrollComplete (client : Option RootHeraldClient) (challengeJson : Option Bytes) (out : OutPtr) : Returned :=
  notImplemented (client.isSome && !isBlank challengeJson) out

def macosCollectEvidence (nonceB64 : Option Bytes) (out : OutPtr) : Returned := notImplemented (!isBlank nonceB64) out

end Unimplemented

section Stub

/-- Arguments are checked behind *out = NULL. -/
def emitStub (valid : Bool) (json : Bytes) (allocated : Bool) (out : OutPtr) : Returned :=
  let out := out.assign none
  if valid && out.isSome then emitHeapJson json allocated out else { status := .invalidArg, out }

def stubEnrollBegin (client : Option RootHeraldClient) (allocated : Bool) (out : OutPtr) : Returned :=
  emitStub client.isSome (text ("\x7b\"stub\":true,\"ekPublicKey\":\"c3R1Yi1lay1wdWI=\"," ++
    "\"akPublicArea\":\"c3R1Yi1hay1wdWI=\",\"platform\":\"stub\"\x7d")) allocated out

def stubEnrollComplete (client : Option RootHeraldClient) (challengeJson : Option Bytes) (allocated : Bool) (out : OutPtr) :
    Returned :=
  emitStub (client.isSome && !isBlank challengeJson)
    (text ("\x7b\"stub\":true,\"deviceId\":\"00000000-0000-4000-8000-000000000stub\"," ++
      "\"decryptedSecret\":\"c3R1Yi1zZWNyZXQ=\"\x7d")) allocated out

def stubEvidence (nonceB64 : Bytes) : Bytes :=
  text "\x7b\"stub\":true,\"deviceId\":\"00000000-0000-4000-8000-000000000stub\",\"quote\":\x7b\"nonce\":\"" ++
    (nonceB64 ++ text "\"\x7d\x7d")

def stubCollectEvidence (nonceB64 : Option Bytes) (allocated : Bool) (out : OutPtr) : Returned :=
  if out.isNone then { status := .invalidArg, out } else
    emitStub (!isBlank nonceB64) (stubEvidence (nonceB64.getD [])) allocated out

end Stub

section Contract

/-- The variable holds a text exactly on success. -/
def Returned.NullOnError (r : Returned) : Prop := ∃ value, r.out = some value ∧ (value.isSome ↔ r.status = .ok)

theorem Returned.NullOnError.failed {status : RootHeraldStatus} (h : status ≠ .ok) :
    Returned.NullOnError ⟨status, some none⟩ :=
  ⟨none, rfl, iff_of_false Bool.false_ne_true h⟩

theorem Returned.NullOnError.succeeded (json : Bytes) : Returned.NullOnError ⟨.ok, some (some json)⟩ :=
  ⟨some json, rfl, iff_of_true rfl rfl⟩

theorem emitHeapJson_nullOnError (json : Bytes) (allocated : Bool) :
    (emitHeapJson json allocated (some none)).NullOnError := by
  cases allocated with
  | true => exact .succeeded json
  | false => exact .failed (by decide)

theorem notImplemented_nullOnError (valid : Bool) (prior : Option Bytes) :
    (notImplemented valid (some prior)).NullOnError := by
  cases valid with
  | true => exact .failed (by decide)
  | false => exact .failed (by decide)

theorem emitStub_nullOnError (valid : Bool) (json : Bytes) (allocated : Bool) (prior : Option Bytes) :
    (emitStub valid json allocated (some prior)).NullOnError := by
  cases valid with
  | true => exact emitHeapJson_nullOnError json allocated
  | false => exact .failed (by decide)

end Contract
end RootHerald
