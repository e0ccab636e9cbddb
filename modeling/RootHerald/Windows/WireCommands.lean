import RootHerald.Lib.Checked
import RootHerald.Lib.Loops
import RootHerald.Windows.PcrCommands

/-! The commands of the Windows client as bytes, and its parsers of the responses, each read of which is
checked against the response. TBS answers any bytes. -/
namespace RootHerald.Windows.Wire
open Lib

section Transport

/-- What Tbsip_Submit_Command answers to a command, behind so many earlier ones; nothing when it fails. -/
abbrev Tbs := Nat → Bytes → Bytes

/-- Responses that come whatever is sent. -/
def replay (responses : Nat → Bytes) : Tbs := fun i _ => responses i

/-- Commands submitted, newest first. -/
abbrev Sent := List Bytes

/-- An open TpmCommands sends in the context of TBS; one that is not open has none. -/
abbrev TpmCommands := Option Tbs

abbrev Submitting := StateT Sent Checked

def exchange (tpm : TpmCommands) (cmd : Bytes) (sent : Sent) : Bytes × Sent :=
  match tpm with
  | none => ([], sent)
  | some tbs => (tbs sent.length cmd, cmd :: sent)

def sendCommand (tpm : TpmCommands) (cmd : Bytes) : Submitting Bytes := fun sent => .ok (exchange tpm cmd sent)

end Transport

section Reads

def readU16 (p : Bytes) (i : Nat) : Checked Nat :=
  if i + 2 ≤ p.length then .ok (Windows.readU16 p i) else .error .outOfBounds

def readU32 (p : Bytes) (i : Nat) : Checked Nat :=
  if i + 4 ≤ p.length then .ok (Windows.readU32 p i) else .error .outOfBounds

/-- Assignment from p.data() + i to p.data() + i + n. -/
def readSlice (p : Bytes) (i n : Nat) : Checked Bytes := readRange (p.drop i) n

end Reads

section Commands

def TPM2_ST_NO_SESSIONS : Nat := 0x8001
def TPM2_CC_PCR_Read : Nat := 0x0000017E
def TPM2_CC_Quote : Nat := 0x00000158
def TPM2_CC_FlushContext : Nat := 0x00000165
def TPM2_CC_ActivateCredential : Nat := 0x00000147
def TPM2_CC_StartAuthSession : Nat := 0x00000176
def TPM2_CC_PolicySecret : Nat := 0x00000151
def TPM2_CC_NV_Read : Nat := 0x0000014E
def TPM2_CC_NV_ReadPublic : Nat := 0x00000169

def pcrReadCommand (pcrIndex : Nat) : Bytes :=
  commandBytes TPM2_ST_NO_SESSIONS TPM2_CC_PCR_Read (pcrSelection [pcrIndex])

/-- Handle, empty password, nonce, RSASSA with SHA-256, and the selection. -/
def quoteCommand (akHandle : UInt32) (nonce : Bytes) (pcrIndices : List Nat) : Bytes :=
  commandBytes TPM2_ST_SESSIONS TPM2_CC_Quote
    (beBytes 4 akHandle.toNat ++ (writePasswordAuth ++ (writeTpm2b nonce ++ (beBytes 2 0x0014 ++ (beBytes 2 0x000B ++
      pcrSelection pcrIndices)))))

def flushContextCommand (handle : Nat) : Bytes := commandBytes TPM2_ST_NO_SESSIONS TPM2_CC_FlushContext (beBytes 4 handle)

def sessionNonce : Bytes := (List.range 32).map fun i => UInt8.ofNat (i * 7 + 3)

/-- Neither salted nor bound; a policy session with SHA-256. -/
def startAuthSessionCommand : Bytes :=
  commandBytes TPM2_ST_NO_SESSIONS TPM2_CC_StartAuthSession
    (beBytes 4 0x40000007 ++ beBytes 4 0x40000007 ++ writeTpm2b sessionNonce ++ beBytes 2 0 ++ [0x01] ++
      beBytes 2 0x0010 ++ beBytes 2 0x000B)

def policySecretCommand (sessionHandle : Nat) : Bytes :=
  commandBytes TPM2_ST_SESSIONS TPM2_CC_PolicySecret
    (beBytes 4 0x4000000B ++ beBytes 4 sessionHandle ++ writePasswordAuth ++ beBytes 2 0 ++ beBytes 2 0 ++
      beBytes 2 0 ++ beBytes 4 0)

/-- An empty password for the AK, the policy session for the EK. -/
def activationAuth (sessionHandle : Nat) : Bytes :=
  beBytes 4 0x40000009 ++ beBytes 2 0 ++ [0x01] ++ beBytes 2 0 ++
    (beBytes 4 sessionHandle ++ beBytes 2 0 ++ [0x01] ++ beBytes 2 0)

def activateCredentialCommand (akHandle ekHandle : UInt32) (sessionHandle : Nat)
    (credentialBlob encryptedSecret : Bytes) : Bytes :=
  commandBytes TPM2_ST_SESSIONS TPM2_CC_ActivateCredential
    (beBytes 4 akHandle.toNat ++ beBytes 4 ekHandle.toNat ++ beBytes 4 (activationAuth sessionHandle).length ++
      activationAuth sessionHandle ++ credentialBlob ++ encryptedSecret)

def nvReadPublicCommand (nvIndex : UInt32) : Bytes :=
  commandBytes TPM2_ST_NO_SESSIONS TPM2_CC_NV_ReadPublic (beBytes 4 nvIndex.toNat)

def nvReadCommand (nvIndex : UInt32) (want readOffset : Nat) : Bytes :=
  commandBytes TPM2_ST_SESSIONS TPM2_CC_NV_Read
    (beBytes 4 nvIndex.toNat ++ (beBytes 4 nvIndex.toNat ++ (writePasswordAuth ++ (beBytes 2 want ++
      beBytes 2 readOffset))))

end Commands

section Responses

/-- The offset behind that many selections. -/
def skipSelections (resp : Bytes) : Nat → Nat → Checked (Option Nat)
  | 0, offset => return some offset
  | selCount + 1, offset => do
    let offset := offset + 2
    if resp.length ≤ offset then return none
    let selectSize ← readU8 (resp.drop offset)
    skipSelections resp selCount (offset + 1 + selectSize.toNat)

/-- PcrRead behind SendCommand. -/
def pcrReadValue (resp : Bytes) : Checked Bytes := do
  if resp.length < 10 then return []
  if (← readU32 resp 6) ≠ 0 then return []
  if resp.length < 18 then return []
  match ← skipSelections resp (← readU32 resp 14) 18 with
  | none => return []
  | some offset =>
    if resp.length < offset + 4 then return []
    if 0 < (← readU32 resp offset) ∧ offset + 6 ≤ resp.length then
      let digestSize ← readU16 resp (offset + 4)
      if offset + 6 + digestSize ≤ resp.length then readSlice resp (offset + 6) digestSize else return []
    else return []

/-- Quote behind SendCommand; none is a return of false. The signature keeps what it held when nothing
stands behind the quoted structure. -/
def quoteOutputs (outSignature resp : Bytes) : Checked (Option (Bytes × Bytes)) := do
  if resp.length < 10 then return none
  if (← readU32 resp 6) ≠ 0 then return none
  if resp.length < 14 then return none
  let _paramSize ← readU32 resp 10
  if resp.length < 16 then return none
  let attestSize ← readU16 resp 14
  if resp.length < 16 + attestSize then return none
  let outQuoted ← readSlice resp 16 attestSize
  let offset := 16 + attestSize
  if offset < resp.length then return some (outQuoted, ← readSlice resp offset (resp.length - offset))
  else return some (outQuoted, outSignature)

/-- CreateAndLoadAk behind SendCommand: the handle, and the vector the caller gave, if it gave one. -/
def createdAk (outPublicKey : Option Bytes) (resp : Bytes) : Checked (Nat × Option Bytes) := do
  if resp.length < 14 then return (0, outPublicKey)
  if (← readU32 resp 6) ≠ 0 then return (0, outPublicKey)
  let handle ← readU32 resp 10
  if outPublicKey.isSome ∧ 18 < resp.length then
    let paramSize ← readU32 resp 14
    if 0 < paramSize ∧ (18 + paramSize) % 2 ^ 32 ≤ resp.length then
      let pubSize ← readU16 resp 18
      if 0 < pubSize ∧ 20 + pubSize ≤ resp.length then return (handle, some (← readSlice resp 18 (2 + pubSize)))
      else return (handle, outPublicKey)
    else return (handle, outPublicKey)
  else return (handle, outPublicKey)

/-- CreateEk behind SendCommand. -/
def createdEk (resp : Bytes) : Checked Nat := do
  if resp.length < 14 then return 0
  if (← readU32 resp 6) ≠ 0 then return 0
  readU32 resp 10

/-- The session handle in a response to StartAuthSession, by its tag. -/
def startedSession (startResp : Bytes) : Checked (Option Nat) := do
  if startResp.length < 14 then return none
  if (← readU32 startResp 6) ≠ 0 then return none
  let handleOffset := if (← readU16 startResp 0) = TPM2_ST_SESSIONS then 14 else 10
  if startResp.length < handleOffset + 4 then return none
  return some (← readU32 startResp handleOffset)

/-- A response of ten bytes and more with response code success. -/
def succeeded (resp : Bytes) : Checked Bool := do
  if resp.length < 10 then return false
  return (← readU32 resp 6) = 0

/-- The secret in a response to ActivateCredential. -/
def recoveredSecret (actResp : Bytes) : Checked Bytes := do
  if actResp.length < 10 then return []
  if (← readU32 actResp 6) ≠ 0 then return []
  if (← readU32 actResp 10) < 2 then return []
  let secretSize ← readU16 actResp 14
  if actResp.length < 16 + secretSize then return []
  readSlice actResp 16 secretSize

/-- The dataSize in a response to NV_ReadPublic, unless it is 0. -/
def nvDataSize (resp : Bytes) : Checked (Option Nat) := do
  if resp.length < 10 then return none
  if (← readU32 resp 6) ≠ 0 then return none
  if resp.length < 12 then return none
  let nvPubSize ← readU16 resp 10
  if resp.length < 12 + nvPubSize then return none
  if resp.length < 12 + 4 + 2 + 4 + 2 then return none
  let policySize ← readU16 resp 22
  if resp.length < 24 + policySize + 2 then return none
  let dataSize ← readU16 resp (24 + policySize)
  if dataSize = 0 then return none
  return some dataSize

/-- The data in a response to NV_Read. -/
def nvChunk (rresp : Bytes) : Checked (Option Bytes) := do
  if rresp.length < 10 then return none
  if (← readU32 rresp 6) ≠ 0 then return none
  if rresp.length < 16 then return none
  let got ← readU16 rresp 14
  if got = 0 ∨ rresp.length < 16 + got then return none
  return some (← readSlice rresp 16 got)

end Responses

section Client

def pcrRead (tpm : TpmCommands) (pcrIndex : Nat) : Submitting Bytes := do
  pcrReadValue (← sendCommand tpm (pcrReadCommand pcrIndex))

def quote (tpm : TpmCommands) (akHandle : UInt32) (nonce : Bytes) (pcrIndices : List Nat) (outSignature : Bytes) :
    Submitting (Option (Bytes × Bytes)) := do
  quoteOutputs outSignature (← sendCommand tpm (quoteCommand akHandle nonce pcrIndices))

def createAndLoadAk (tpm : TpmCommands) (outPublicKey : Option Bytes) : Submitting (Nat × Option Bytes) := do
  createdAk outPublicKey (← sendCommand tpm (createPrimaryCommand .owner))

def createEk (tpm : TpmCommands) : Submitting Nat := do
  createdEk (← sendCommand tpm (createPrimaryCommand .endorsement))

def flushContext (tpm : TpmCommands) (handle : Nat) : Submitting Unit := do
  let _resp ← sendCommand tpm (flushContextCommand handle)
  return ()

def flushHandle (tpm : TpmCommands) (handle : Nat) : Submitting Unit :=
  if handle ≠ 0 then flushContext tpm handle else return ()

/-- Steps 2 and 3, with the policy session of step 1. -/
def activateInSession (tpm : TpmCommands) (akHandle ekHandle : UInt32) (sessionHandle : Nat)
    (credentialBlob encryptedSecret : Bytes) : Submitting Bytes := do
  let policyResp ← sendCommand tpm (policySecretCommand sessionHandle)
  if ← succeeded policyResp then
    recoveredSecret
      (← sendCommand tpm (activateCredentialCommand akHandle ekHandle sessionHandle credentialBlob encryptedSecret))
  else return []

def activateCredential (tpm : TpmCommands) (akHandle ekHandle : UInt32) (credentialBlob encryptedSecret : Bytes) :
    Submitting Bytes := do
  match ← startedSession (← sendCommand tpm startAuthSessionCommand) with
  | none => return []
  | some sessionHandle =>
    let secret ← activateInSession tpm akHandle ekHandle sessionHandle credentialBlob encryptedSecret
    flushHandle tpm sessionHandle
    return secret

def kChunk : Nat := 1024

/-- The state of the loop over NV_Read. -/
structure NvReading where
  outCert : Bytes := []
  readOffset : Nat := 0
  sent : Sent

/-- Whether the certificate was read, and outCert. -/
abbrev NvResult := (Bool × Bytes) × Sent

/-- One round of the loop; the offset is a uint16_t. -/
def nvReadRound (tpm : TpmCommands) (nvIndex : UInt32) (dataSize : Nat) (s : NvReading) :
    Round NvReading (Checked NvResult) :=
  if s.readOffset < dataSize then
    let want := if kChunk < dataSize - s.readOffset then kChunk else dataSize - s.readOffset
    let (rresp, sent) := exchange tpm (nvReadCommand nvIndex want s.readOffset) s.sent
    match nvChunk rresp with
    | .error e => .leave (.error e)
    | .ok none => .leave (.ok ((false, []), sent))
    | .ok (some chunk) => .again ⟨s.outCert ++ chunk, (s.readOffset + chunk.length) % 2 ^ 16, sent⟩
  else .leave (.ok ((!s.outCert.isEmpty, s.outCert), s.sent))

/-- No result is that of a loop still running behind so many rounds. -/
def readNvCertificate (tpm : TpmCommands) (nvIndex : UInt32) (rounds : Nat) (sent : Sent) : Option (Checked NvResult) :=
  let (resp, sent) := exchange tpm (nvReadPublicCommand nvIndex) sent
  match nvDataSize resp with
  | .error e => some (.error e)
  | .ok none => some (.ok ((false, []), sent))
  | .ok (some dataSize) => Round.loop (nvReadRound tpm nvIndex dataSize) rounds { sent }

end Client
end RootHerald.Windows.Wire
