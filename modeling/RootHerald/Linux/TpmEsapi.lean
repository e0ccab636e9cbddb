import RootHerald.Lib.Bytes
import RootHerald.Lib.Triple

/-! The ESAPI wrapper of the Linux driver, over a TPM that holds loaded objects. A primary key is a
function of hierarchy and template; a created key is new. -/
namespace RootHerald.Linux
open Lib

inductive Hierarchy where
  | owner | endorsement
  deriving DecidableEq, Repr

inductive Template where
  | ekRsa | srkRsa | akRsa
  deriving DecidableEq, Repr

/-- A key pair: that of a primary seed and template, or the one the n-th Esys_Create drew. -/
inductive Key where
  | primary (hierarchy : Hierarchy) (template : Template)
  | created (n : Nat)
  deriving DecidableEq, Repr

/-- ESYS_TR of a loaded object. ESYS_TR_NONE is none. -/
abbrev Handle := Nat

structure Tpm where
  objects : List (Handle × Key) := []
  nextHandle : Handle := 0
  drawn : Nat := 0

/-- The TPM, and whether each further call of the libraries below succeeds; past the end none does. -/
structure World where
  tpm : Tpm := {}
  codes : List Bool := []

abbrev Esys := StateM World

section Library

/-- The return code of the next call. -/
def call : Esys Bool := fun w =>
  match w.codes with
  | [] => (false, w)
  | rc :: codes => (rc, { w with codes })

def load (key : Key) : Esys Handle := fun w =>
  (w.tpm.nextHandle, { w with tpm := { w.tpm with
    objects := (w.tpm.nextHandle, key) :: w.tpm.objects, nextHandle := w.tpm.nextHandle + 1 } })

def keyAt (handle : Handle) : Esys (Option Key) := fun w => (w.tpm.objects.lookup handle, w)

def esysCreatePrimary (hierarchy : Hierarchy) (template : Template) : Esys (Option (Handle × Key)) := do
  if ← call then
    return some (← load (.primary hierarchy template), .primary hierarchy template)
  else return none

/-- The private and public part of a new key pair. -/
def esysCreate : Esys (Option Key) := do
  if ← call then
    fun w => (some (.created w.tpm.drawn), { w with tpm := { w.tpm with drawn := w.tpm.drawn + 1 } })
  else return none

def esysLoad (key : Key) : Esys (Option Handle) := do
  if ← call then return some (← load key) else return none

def esysReadPublic (handle : Handle) : Esys (Option Key) := do
  if ← call then keyAt handle else return none

def esysFlushContext (handle : Handle) : Esys Unit := do
  if ← call then
    modify fun w => { w with tpm := { w.tpm with objects := w.tpm.objects.filter (fun o => o.1 ≠ handle) } }
  else return ()

end Library

structure TpmContext where
  ekHandle : Option Handle := none
  srkHandle : Option Handle := none
  akHandle : Option Handle := none

def tpmOpen : Esys (Option TpmContext) := do
  if ← call then return some {} else return none

def flushHandle : Option Handle → Esys Unit
  | some handle => esysFlushContext handle
  | none => return ()

def tpmClose (ctx : TpmContext) : Esys Unit := do
  flushHandle ctx.akHandle
  flushHandle ctx.srkHandle
  flushHandle ctx.ekHandle

/-- Returns the public area of the endorsement key, when it can be created and marshalled. -/
def tpmReadEkPub (ctx : TpmContext) : Esys (Option Key × TpmContext) := do
  flushHandle ctx.ekHandle
  let ctx := { ctx with ekHandle := none }
  match ← esysCreatePrimary .endorsement .ekRsa with
  | none => return (none, ctx)
  | some (handle, key) =>
    let ctx := { ctx with ekHandle := some handle }
    if ← call then return (some key, ctx) else return (none, ctx)

def tpmCreateAk (ctx : TpmContext) : Esys (Bool × TpmContext) := do
  flushHandle ctx.srkHandle
  let ctx := { ctx with srkHandle := none }
  match ← esysCreatePrimary .owner .srkRsa with
  | none => return (false, ctx)
  | some (srkHandle, _) =>
    let ctx := { ctx with srkHandle := some srkHandle }
    match ← esysCreate with
    | none => return (false, ctx)
    | some key =>
      flushHandle ctx.akHandle
      let ctx := { ctx with akHandle := none }
      match ← esysLoad key with
      | none => return (false, ctx)
      | some akHandle => return (true, { ctx with akHandle := some akHandle })

/-- The key whose TPM2B_PUBLIC is marshalled. -/
def tpmGetAkPub (ctx : TpmContext) : Esys (Option Key) := do
  match ctx.akHandle with
  | none => return none
  | some handle =>
    match ← esysReadPublic handle with
    | none => return none
    | some key => if ← call then return some key else return none

/-- The key whose TPM2B_NAME is copied out. -/
def tpmGetAkName (ctx : TpmContext) : Esys (Option Key) := do
  match ctx.akHandle with
  | none => return none
  | some handle => esysReadPublic handle

/-- Capacities of TPM2B_ID_OBJECT and TPM2B_ENCRYPTED_SECRET. -/
def idObjectCapacity : Nat := 132
def encryptedSecretCapacity : Nat := 512

/-- A policy session, PolicySecret on the endorsement hierarchy, ActivateCredential. The session is
flushed when PolicySecret fails. -/
def tpmActivateCredential (ctx : TpmContext) (credBlobLen secretLen : Nat) : Esys Bool := do
  if ctx.akHandle = none ∨ ctx.ekHandle = none then return false
  if idObjectCapacity < credBlobLen then return false
  if encryptedSecretCapacity < secretLen then return false
  if ← call then
    if ← call then call
    else
      let _flush ← call
      return false
  else return false

/-- Capacity of TPM2B_DATA. -/
def qualifyingDataCapacity : Nat := 64

/-- What Esys_Quote is asked to sign, and the key it signs with. -/
structure QuoteCall where
  key : Option Key
  qualifyingData : Bytes
  deriving DecidableEq

/-- The first nonceLen bytes of the nonce buffer, cut to the capacity, reach Esys_Quote. -/
def tpmQuote (ctx : TpmContext) (nonce : Bytes) (nonceLen : Nat) : Esys (Bool × Option QuoteCall) := do
  match ctx.akHandle with
  | none => return (false, none)
  | some handle =>
    let size := if qualifyingDataCapacity < nonceLen then qualifyingDataCapacity else nonceLen
    let key ← keyAt handle
    return (← call, some ⟨key, nonce.take size⟩)

end RootHerald.Linux
