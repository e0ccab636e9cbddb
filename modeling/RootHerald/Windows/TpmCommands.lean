import RootHerald.Lib.Bytes
import RootHerald.Lib.Triple

/-! Raw TPM 2.0 commands of the Windows client, over a TPM behind TBS. The TPM answers bytes, of which
any number may arrive, and keeps a log, newest entry first. -/
namespace RootHerald.Windows
open Lib

/-- A key pair, by the TPMT_PUBLIC of its public part. -/
structure Key where
  content : Bytes
  content_ne : content ≠ []
  content_lt : content.length < 2 ^ 16
  deriving DecidableEq

/-- TPM2B_PUBLIC. -/
def Key.publicArea (key : Key) : Bytes := beBytes 2 key.content.length ++ key.content

inductive Hierarchy where
  | owner | endorsement
  deriving DecidableEq, Repr

/-- TBS contexts are numbered in the order they are created. -/
abbrev Context := Nat

abbrev Handle := Nat

def kTbsAkPersistentHandle : Handle := 0x81029301

inductive Event where
  | created (hierarchy : Hierarchy) (key : Key)
  | activated (ak ek : Key) (secret : Bytes)
  | stored (key : Key)
  | cleared
  /-- EnrollBegin returned OK with this text. -/
  | began (enrollJson : Bytes)
  /-- EnrollComplete returned OK. -/
  | completed
  deriving DecidableEq

/-- Transient objects by context and handle, and the key at the persistent handle. -/
structure Tpm where
  /-- The secret in a credential blob and encrypted secret, when they were sealed to that AK and EK. -/
  openCredential : (ak ek : Key) → (credentialBlob encryptedSecret : Bytes) → Option Bytes
  objects : List ((Context × Handle) × Key) := []
  persistent : Option Key := none
  contexts : Context := 0
  log : List Event := []

inductive Command where
  | createPrimary (hierarchy : Hierarchy)
  | startAuthSession
  | policySecret (session : Handle)
  | activateCredential (activateHandle keyHandle session : Handle) (credentialBlob encryptedSecret : Bytes)
  | flushContext (handle : Handle)
  | readPublic (handle : Handle)
  | evictControl (objectHandle persistentHandle : Handle)

/-- What the TPM draws for a command: the handle and key of a new object, and the part of the response
the client does not read. -/
structure Drawn where
  handle : Handle
  key : Key
  rest : Bytes

/-- What becomes of a command. -/
inductive Outcome where
  /-- TBS fails before the TPM sees it. -/
  | unsent
  /-- The TPM refuses it, with some code other than success. -/
  | refused (code : Nat)
  /-- The TPM executes it if it can, and that many bytes of the response arrive. -/
  | executed (arriving : Nat) (drawn : Drawn)

/-- A command handed to TBS, and the response that came back. -/
structure Sent where
  context : Context
  cmd : Command
  resp : Bytes

/-- Newest command first. -/
structure World where
  tpm : Tpm
  outcomes : List Outcome
  sent : List Sent := []

abbrev Tbs := StateM World

section Device

def isTransient (handle : Handle) : Bool := handle / 2 ^ 24 = 0x80
def isSession (handle : Handle) : Bool := handle / 2 ^ 24 = 0x03

def Tpm.keyAt (tpm : Tpm) (context : Context) (handle : Handle) : Option Key :=
  if handle = kTbsAkPersistentHandle then tpm.persistent else tpm.objects.lookup (context, handle)

def Tpm.create (tpm : Tpm) (hierarchy : Hierarchy) (context : Context) (handle : Handle) (key : Key) : Tpm :=
  { tpm with objects := ((context, handle), key) :: tpm.objects, log := .created hierarchy key :: tpm.log }

def Tpm.flush (tpm : Tpm) (context : Context) (handle : Handle) : Tpm :=
  { tpm with objects := tpm.objects.filter fun o => o.1 ≠ (context, handle) }

def Tpm.record (tpm : Tpm) (e : Event) : Tpm := { tpm with log := e :: tpm.log }

def Tpm.clear (tpm : Tpm) : Tpm := { tpm with persistent := none, log := .cleared :: tpm.log }

def Tpm.store (tpm : Tpm) (key : Key) : Tpm := { tpm with persistent := some key, log := .stored key :: tpm.log }

/-- The response behind its header and the TPM after the command, unless it is refused. -/
def Tpm.execute (drawn : Drawn) (context : Context) (tpm : Tpm) : Command → Option (Bytes × Tpm)
  | .createPrimary hierarchy =>
    if isTransient drawn.handle ∧ tpm.objects.lookup (context, drawn.handle) = none then
      let publicArea := drawn.key.publicArea
      some (beBytes 4 drawn.handle ++ (beBytes 4 (publicArea.length + drawn.rest.length) ++ (publicArea ++ drawn.rest)),
        tpm.create hierarchy context drawn.handle drawn.key)
    else none
  | .startAuthSession => if isSession drawn.handle then some (beBytes 4 drawn.handle ++ drawn.rest, tpm) else none
  | .policySecret _ => some (drawn.rest, tpm)
  | .activateCredential activateHandle keyHandle _ credentialBlob encryptedSecret =>
    match tpm.keyAt context activateHandle, tpm.keyAt context keyHandle with
    | some ak, some ek =>
      match tpm.openCredential ak ek credentialBlob encryptedSecret with
      | none => none
      | some secret =>
        some (beBytes 4 (2 + secret.length) ++ (beBytes 2 secret.length ++ (secret ++ drawn.rest)),
          tpm.record (.activated ak ek secret))
    | _, _ => none
  | .flushContext handle => some (drawn.rest, if isTransient handle then tpm.flush context handle else tpm)
  | .readPublic handle => (tpm.keyAt context handle).map fun _ => (drawn.rest, tpm)
  | .evictControl objectHandle persistentHandle =>
    if persistentHandle ≠ kTbsAkPersistentHandle then none
    else if objectHandle = persistentHandle then
      tpm.persistent.map fun _ => (drawn.rest, tpm.clear)
    else
      match tpm.persistent, tpm.keyAt context objectHandle with
      | none, some key => some (drawn.rest, tpm.store key)
      | _, _ => none

/-- TPM_ST_NO_SESSIONS or TPM_ST_SESSIONS. -/
def Command.tag : Command → Nat
  | .startAuthSession | .flushContext _ | .readPublic _ => 0x8001
  | .createPrimary _ | .policySecret _ | .activateCredential .. | .evictControl _ _ => 0x8002

def responseHeader (tag responseSize responseCode : Nat) : Bytes :=
  beBytes 2 tag ++ (beBytes 4 responseSize ++ beBytes 4 responseCode)

def refusal (code : Nat) : Bytes := responseHeader 0x8001 10 (code % (2 ^ 32 - 1) + 1)

def nextOutcome : Tbs Outcome := fun w =>
  match w.outcomes with
  | [] => (.unsent, w)
  | outcome :: outcomes => (outcome, { w with outcomes })

end Device

section TpmCommands

/-- The context of an open TpmCommands. -/
abbrev TpmCommands := Option Context

def tpmOpen : TpmCommands → Tbs (Bool × TpmCommands)
  | some context => return (true, some context)
  | none => do
    match ← nextOutcome with
    | .executed _ _ =>
      fun w => ((true, some w.tpm.contexts), { w with tpm := { w.tpm with contexts := w.tpm.contexts + 1 } })
    | _ => return (false, none)

/-- TBS drops what the context still holds. -/
def tpmClose : TpmCommands → Tbs Unit
  | none => return ()
  | some context =>
    modify fun w => { w with tpm := { w.tpm with objects := w.tpm.objects.filter fun o => o.1.1 ≠ context } }

/-- The command reaches the TPM, and so many bytes of its response come back. -/
def submit (context : Context) (cmd : Command) (arriving : Nat) (drawn : Drawn) : Tbs Bytes := fun w =>
  match Tpm.execute drawn context w.tpm cmd with
  | none => ((refusal 0).take arriving, w)
  | some (params, tpm) => ((responseHeader cmd.tag (10 + params.length) 0 ++ params).take arriving, { w with tpm })

/-- Tbsip_Submit_Command. -/
def submitCommand (context : Context) (cmd : Command) : Tbs Bytes := do
  match ← nextOutcome with
  | .unsent => return []
  | .refused code => return refusal code
  | .executed arriving drawn => submit context cmd arriving drawn

def sendCommand (tpm : TpmCommands) (cmd : Command) : Tbs Bytes := do
  match tpm with
  | none => return []
  | some context =>
    let resp ← submitCommand context cmd
    modify fun w => { w with sent := ⟨context, cmd, resp⟩ :: w.sent }
    return resp

/-- Big-endian reads. The buffer of a response is zero behind it. -/
def readU16 (p : Bytes) (i : Nat) : Nat := beNat [p.getD i 0, p.getD (i + 1) 0]
def readU32 (p : Bytes) (i : Nat) : Nat := beNat [p.getD i 0, p.getD (i + 1) 0, p.getD (i + 2) 0, p.getD (i + 3) 0]

/-- The TPM2B_PUBLIC in a response to CreatePrimary, when it is there whole. -/
def createdPublicArea (resp : Bytes) : Bytes :=
  if 18 < resp.length then
    let paramSize := readU32 resp 14
    if 0 < paramSize ∧ (18 + paramSize) % 2 ^ 32 ≤ resp.length then
      let pubSize := readU16 resp 18
      if 0 < pubSize ∧ 20 + pubSize ≤ resp.length then (resp.drop 18).take (2 + pubSize) else []
    else []
  else []

/-- The handle and the public area. -/
def createAndLoadAk (tpm : TpmCommands) : Tbs (Handle × Bytes) := do
  let resp ← sendCommand tpm (.createPrimary .owner)
  if resp.length < 14 then return (0, [])
  if readU32 resp 6 ≠ 0 then return (0, [])
  return (readU32 resp 10, createdPublicArea resp)

def createEk (tpm : TpmCommands) : Tbs Handle := do
  let resp ← sendCommand tpm (.createPrimary .endorsement)
  if resp.length < 14 then return 0
  if readU32 resp 6 ≠ 0 then return 0
  return readU32 resp 10

def flushContext (tpm : TpmCommands) (handle : Handle) : Tbs Unit := do
  let _resp ← sendCommand tpm (.flushContext handle)
  return ()

def flushHandle (tpm : TpmCommands) (handle : Handle) : Tbs Unit :=
  if handle ≠ 0 then flushContext tpm handle else return ()

/-- The session handle in a response to StartAuthSession, by its tag. -/
def startedSession (startResp : Bytes) : Option Handle :=
  if startResp.length < 14 then none
  else if readU32 startResp 6 ≠ 0 then none
  else
    let handleOffset := if readU16 startResp 0 = 0x8002 then 14 else 10
    if startResp.length < handleOffset + 4 then none else some (readU32 startResp handleOffset)

/-- The secret in a response to ActivateCredential. -/
def recoveredSecret (actResp : Bytes) : Bytes :=
  if actResp.length < 10 then []
  else if readU32 actResp 6 ≠ 0 then []
  else if readU32 actResp 10 < 2 then []
  else
    let secretSize := readU16 actResp 14
    if actResp.length < 16 + secretSize then [] else (actResp.drop 16).take secretSize

/-- Steps 2 and 3, with the policy session of step 1. -/
def activateInSession (tpm : TpmCommands) (akHandle ekHandle sessionHandle : Handle)
    (credentialBlob encryptedSecret : Bytes) : Tbs Bytes := do
  let policyResp ← sendCommand tpm (.policySecret sessionHandle)
  if policyResp.length < 10 then return []
  if readU32 policyResp 6 ≠ 0 then return []
  let actResp ← sendCommand tpm (.activateCredential akHandle ekHandle sessionHandle credentialBlob encryptedSecret)
  return recoveredSecret actResp

def activateCredential (tpm : TpmCommands) (akHandle ekHandle : Handle) (credentialBlob encryptedSecret : Bytes) :
    Tbs Bytes := do
  let startResp ← sendCommand tpm .startAuthSession
  match startedSession startResp with
  | none => return []
  | some sessionHandle =>
    let secret ← activateInSession tpm akHandle ekHandle sessionHandle credentialBlob encryptedSecret
    flushHandle tpm sessionHandle
    return secret

/-- A response of ten bytes and more with response code success. -/
def succeeded (resp : Bytes) : Bool := if resp.length < 10 then false else readU32 resp 6 = 0

def isPersistentPresent (tpm : TpmCommands) (persistentHandle : Handle) : Tbs Bool := do
  let resp ← sendCommand tpm (.readPublic persistentHandle)
  return succeeded resp

/-- An occupied slot is cleared first. -/
def clearPersistent (tpm : TpmCommands) (persistentHandle : Handle) : Tbs Bool := do
  if ← isPersistentPresent tpm persistentHandle then
    let clearResp ← sendCommand tpm (.evictControl persistentHandle persistentHandle)
    return succeeded clearResp
  else return true

def evictControl (tpm : TpmCommands) (transientHandle persistentHandle : Handle) : Tbs Bool := do
  if ← clearPersistent tpm persistentHandle then
    let resp ← sendCommand tpm (.evictControl transientHandle persistentHandle)
    return succeeded resp
  else return false

end TpmCommands
end RootHerald.Windows
