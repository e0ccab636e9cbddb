import RootHerald.Lib.Format
import RootHerald.Windows.QuoteCommand

/-! The TPM 2.0 grammar of the commands the client sends: header, handles, authorization area and the
parameters of the command code. -/
namespace RootHerald.Windows.Wire
open Lib

section Structures

/-- TPMT_SYM_DEF; the null algorithm has neither key bits nor a mode. -/
structure SymDef where
  algorithm : Nat
  keyBitsMode : Option (Nat × Nat)
  deriving DecidableEq

/-- TPMT_PUBLIC of an RSA key. -/
structure RsaPublic where
  nameAlg : Nat
  objectAttributes : Nat
  authPolicy : Bytes
  symmetric : SymDef
  scheme : SigScheme
  keyBits : Nat
  exponent : Nat
  unique : Bytes
  deriving DecidableEq

structure CreatePrimaryParameters where
  /-- TPMS_SENSITIVE_CREATE. -/
  userAuth : Bytes
  data : Bytes
  inPublic : RsaPublic
  outsideInfo : Bytes
  creationPcr : List (Nat × Bytes)
  deriving DecidableEq

structure StartAuthSessionParameters where
  nonceCaller : Bytes
  encryptedSalt : Bytes
  sessionType : Nat
  symmetric : SymDef
  authHash : Nat
  deriving DecidableEq

structure PolicySecretParameters where
  nonceTpm : Bytes
  cpHashA : Bytes
  policyRef : Bytes
  expiration : Nat
  deriving DecidableEq

structure QuoteParameters where
  qualifyingData : Bytes
  inScheme : SigScheme
  pcrSelect : List (Nat × Bytes)
  deriving DecidableEq

end Structures

section Codes

inductive Code where
  | pcrRead | quote | flushContext | createPrimary | activateCredential | startAuthSession | policySecret
  | evictControl | readPublic | nvRead | nvReadPublic
  deriving DecidableEq

def TPM2_CC_EvictControl : Nat := 0x00000120
def TPM2_CC_ReadPublic : Nat := 0x00000173

namespace Code

def value : Code → Nat
  | pcrRead => TPM2_CC_PCR_Read
  | quote => TPM2_CC_Quote
  | flushContext => TPM2_CC_FlushContext
  | createPrimary => TPM2_CC_CreatePrimary
  | activateCredential => TPM2_CC_ActivateCredential
  | startAuthSession => TPM2_CC_StartAuthSession
  | policySecret => TPM2_CC_PolicySecret
  | evictControl => TPM2_CC_EvictControl
  | readPublic => TPM2_CC_ReadPublic
  | nvRead => TPM2_CC_NV_Read
  | nvReadPublic => TPM2_CC_NV_ReadPublic

def ofValue (n : Nat) : Option Code :=
  [pcrRead, quote, flushContext, createPrimary, activateCredential, startAuthSession, policySecret, evictControl,
    readPublic, nvRead, nvReadPublic].find? fun code => code.value = n

theorem ofValue_eq_some {n : Nat} {code : Code} : ofValue n = some code ↔ code.value = n := by
  constructor
  · intro h
    simpa using List.find?_some h
  · rintro rfl
    cases code <;> rfl

/-- The handle area. -/
def handles : Code → Nat
  | pcrRead | flushContext => 0
  | quote | createPrimary | readPublic | nvReadPublic => 1
  | activateCredential | startAuthSession | policySecret | evictControl | nvRead => 2

/-- The handles that need an authorization; without any the command carries no sessions. -/
def authorizations : Code → Nat
  | pcrRead | flushContext | readPublic | nvReadPublic | startAuthSession => 0
  | quote | createPrimary | policySecret | evictControl | nvRead => 1
  | activateCredential => 2

def tag (code : Code) : Nat := if code.authorizations = 0 then TPM2_ST_NO_SESSIONS else TPM2_ST_SESSIONS

def Parameters : Code → Type
  | pcrRead => List (Nat × Bytes)
  | quote => QuoteParameters
  | flushContext => Nat
  | createPrimary => CreatePrimaryParameters
  | activateCredential => Bytes × Bytes
  | startAuthSession => StartAuthSessionParameters
  | policySecret => PolicySecretParameters
  | evictControl => Nat
  | readPublic => Unit
  | nvRead => Nat × Nat
  | nvReadPublic => Unit

end Code

/-- A command, field by field. -/
structure Request (code : Code) where
  handles : List Nat
  auths : List AuthCommand
  parameters : code.Parameters

end Codes

section Formats
open Format

/-- TPMS_AUTH_COMMAND. -/
def authCommand : Format AuthCommand :=
  ((word 4).pair ((sized 2).pair ((word 1).pair (sized 2)))).via
    ⟨fun a => ⟨a.1, a.2.1, a.2.2.1, a.2.2.2⟩,
      fun a => (a.sessionHandle, a.nonceCaller, a.sessionAttributes, a.hmac), fun _ => rfl, fun _ => rfl⟩

/-- TPMT_SIG_SCHEME and TPMT_RSA_SCHEME. -/
def sigScheme : Format SigScheme :=
  ((word 2).dep fun scheme => if scheme = TPM2_ALG_NULL then absent else present (word 2)).via
    ⟨fun s => ⟨s.1, s.2⟩, fun s => (s.scheme, s.hash), fun _ => rfl, fun _ => rfl⟩

def symDef : Format SymDef :=
  ((word 2).dep fun algorithm => if algorithm = TPM2_ALG_NULL then absent else present ((word 2).pair (word 2))).via
    ⟨fun s => ⟨s.1, s.2⟩, fun s => (s.algorithm, s.keyBitsMode), fun _ => rfl, fun _ => rfl⟩

/-- TPML_PCR_SELECTION. -/
def pcrSelections : Format (List (Nat × Bytes)) := counted 4 ((word 2).pair (sized 1))

def TPM2_ALG_RSA : Nat := 0x0001

def rsaPublic : Format RsaPublic :=
  ((literal (beBytes 2 TPM2_ALG_RSA)).pair ((word 2).pair ((word 4).pair ((sized 2).pair (symDef.pair (sigScheme.pair
    ((word 2).pair ((word 4).pair (sized 2))))))))).via
    ⟨fun p => ⟨p.2.1, p.2.2.1, p.2.2.2.1, p.2.2.2.2.1, p.2.2.2.2.2.1, p.2.2.2.2.2.2.1, p.2.2.2.2.2.2.2.1,
        p.2.2.2.2.2.2.2.2⟩,
      fun p => ((), p.nameAlg, p.objectAttributes, p.authPolicy, p.symmetric, p.scheme, p.keyBits, p.exponent, p.unique),
      fun _ => rfl, fun _ => rfl⟩

def createPrimaryFormat : Format CreatePrimaryParameters :=
  ((within 2 ((sized 2).pair (sized 2))).pair ((within 2 rsaPublic).pair ((sized 2).pair pcrSelections))).via
    ⟨fun p => ⟨p.1.1, p.1.2, p.2.1, p.2.2.1, p.2.2.2⟩,
      fun p => ((p.userAuth, p.data), p.inPublic, p.outsideInfo, p.creationPcr), fun _ => rfl, fun _ => rfl⟩

def startAuthSessionFormat : Format StartAuthSessionParameters :=
  ((sized 2).pair ((sized 2).pair ((word 1).pair (symDef.pair (word 2))))).via
    ⟨fun p => ⟨p.1, p.2.1, p.2.2.1, p.2.2.2.1, p.2.2.2.2⟩,
      fun p => (p.nonceCaller, p.encryptedSalt, p.sessionType, p.symmetric, p.authHash), fun _ => rfl, fun _ => rfl⟩

def policySecretFormat : Format PolicySecretParameters :=
  ((sized 2).pair ((sized 2).pair ((sized 2).pair (word 4)))).via
    ⟨fun p => ⟨p.1, p.2.1, p.2.2.1, p.2.2.2⟩,
      fun p => (p.nonceTpm, p.cpHashA, p.policyRef, p.expiration), fun _ => rfl, fun _ => rfl⟩

def quoteFormat : Format QuoteParameters :=
  ((sized 2).pair (sigScheme.pair pcrSelections)).via
    ⟨fun p => ⟨p.1, p.2.1, p.2.2⟩, fun p => (p.qualifyingData, p.inScheme, p.pcrSelect), fun _ => rfl, fun _ => rfl⟩

def Code.parameters : (code : Code) → Format code.Parameters
  | pcrRead => pcrSelections
  | quote => quoteFormat
  | flushContext => word 4
  | createPrimary => createPrimaryFormat
  | activateCredential => (sized 2).pair (sized 2)
  | startAuthSession => startAuthSessionFormat
  | policySecret => policySecretFormat
  | evictControl => word 4
  | readPublic => literal []
  | nvRead => (word 2).pair (word 2)
  | nvReadPublic => literal []

/-- The authorization area, when the command carries sessions. -/
def authorizationArea (n : Nat) : Format (List AuthCommand) :=
  if n = 0 then repeated authCommand 0 else within 4 (repeated authCommand n)

def Code.body (code : Code) : Format (Request code) :=
  ((repeated (word 4) code.handles).pair ((authorizationArea code.authorizations).pair code.parameters)).via
    ⟨fun r => ⟨r.1, r.2.1, r.2.2⟩, fun r => (r.handles, r.auths, r.parameters), fun _ => rfl, fun _ => rfl⟩

end Formats

section Framing
open Format
variable {code : Code} {r : Request code} {cmd : Bytes}

def Request.marshal (r : Request code) : Bytes := commandBytes code.tag code.value (code.body.write r)

/-- Every field holds its value, the command size among them. -/
def Request.Fits (r : Request code) : Prop := code.body.Fits r ∧ 10 + (code.body.write r).length < 2 ^ 32

def commandHeader : Format (Nat × Nat × Nat) := (word 2).pair ((word 4).pair (word 4))

/-- The command the TPM reads in the bytes it is handed. -/
def unmarshal (cmd : Bytes) : Option (Σ code, Request code) := do
  let ((tag, commandSize, value), rest) ← commandHeader.read cmd
  guard (commandSize = cmd.length)
  let code ← Code.ofValue value
  guard (tag = code.tag)
  let r ← code.body.whole rest
  return ⟨code, r⟩

theorem commandBytes_eq_header (tag value : Nat) (params : Bytes) :
    commandBytes tag value params = commandHeader.write (tag, 10 + params.length, value) ++ params := by
  simp only [commandBytes, List.append_assoc]
  rfl

theorem commandHeader_length (h : Nat × Nat × Nat) : (commandHeader.write h).length = 10 := by
  change (beBytes 2 h.1 ++ (beBytes 4 h.2.1 ++ beBytes 4 h.2.2)).length = 10
  simp only [List.length_append, beBytes_length]

theorem Code.tag_lt (code : Code) : code.tag < 256 ^ 2 := by
  cases code <;> decide

theorem Code.value_lt (code : Code) : code.value < 256 ^ 4 := by
  cases code <;> decide

theorem Request.marshal_length (r : Request code) : r.marshal.length = 10 + (code.body.write r).length :=
  commandBytes_length _ _ _

/-- The TPM reads a request in its own bytes, and in no others. -/
theorem unmarshal_eq_some : unmarshal cmd = some ⟨code, r⟩ ↔ r.Fits ∧ cmd = r.marshal := by
  constructor
  · intro h
    simp only [unmarshal, Option.bind_eq_bind, Option.bind_eq_some_iff] at h
    obtain ⟨⟨⟨tag, size, value⟩, rest⟩, hheader, _, hsize, code', hcode, _, htag, r', hbody, hr⟩ := h
    obtain ⟨⟨-, hlt, -⟩, hcmd⟩ := commandHeader.write_read hheader
    obtain rfl := (Option.guard_eq_some' _).mp hsize
    obtain rfl := Code.ofValue_eq_some.1 hcode
    obtain rfl := (Option.guard_eq_some' _).mp htag
    obtain ⟨hfits, rfl⟩ := code'.body.whole_eq_some.mp hbody
    cases hr
    have hlen : cmd.length = 10 + (code.body.write r).length := by
      rw [hcmd, List.length_append, commandHeader_length]
    have hlt : cmd.length < 256 ^ 4 := hlt
    rw [hlen] at hcmd hlt
    exact ⟨⟨hfits, hlt⟩, by rw [hcmd, ← commandBytes_eq_header, Request.marshal]⟩
  · rintro ⟨⟨hfits, hsize⟩, rfl⟩
    have hread : commandHeader.read r.marshal =
        some ((code.tag, 10 + (code.body.write r).length, code.value), code.body.write r) := by
      rw [Request.marshal, commandBytes_eq_header]
      exact commandHeader.read_write (a := (code.tag, _, code.value)) ⟨code.tag_lt, hsize, code.value_lt⟩ _
    simp only [unmarshal, hread, Option.bind_eq_bind, Option.bind_some, guard, r.marshal_length, if_true,
      Code.ofValue_eq_some.2 rfl, code.body.whole_eq_some.mpr ⟨hfits, rfl⟩]
    rfl

end Framing

section Eviction

def readPublicCommand (handle : Nat) : Bytes := commandBytes TPM2_ST_NO_SESSIONS TPM2_CC_ReadPublic (beBytes 4 handle)

def evictControlCommand (objectHandle persistentHandle : Nat) : Bytes :=
  commandBytes TPM2_ST_SESSIONS TPM2_CC_EvictControl
    (beBytes 4 0x40000001 ++ beBytes 4 objectHandle ++ writePasswordAuth ++ beBytes 4 persistentHandle)

def isPersistentPresent (tpm : TpmCommands) (persistentHandle : Nat) : Submitting Bool := do
  succeeded (← sendCommand tpm (readPublicCommand persistentHandle))

/-- An occupied slot is cleared first. -/
def clearPersistent (tpm : TpmCommands) (persistentHandle : Nat) : Submitting Bool := do
  if ← isPersistentPresent tpm persistentHandle then
    succeeded (← sendCommand tpm (evictControlCommand persistentHandle persistentHandle))
  else return true

def evictControl (tpm : TpmCommands) (transientHandle persistentHandle : Nat) : Submitting Bool := do
  if ← clearPersistent tpm persistentHandle then
    succeeded (← sendCommand tpm (evictControlCommand transientHandle persistentHandle))
  else return false

end Eviction
end RootHerald.Windows.Wire
