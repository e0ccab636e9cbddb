import Mathlib.Logic.Function.Basic
import RootHerald.Lib.Ledger
import RootHerald.Lib.Projection
import RootHerald.Linux.TpmEsapi

/-! The memory ESAPI hands out to the wrapper: the same functions with their output pointers, which blocks they
were given and which they free. -/
namespace RootHerald.Linux.Blocks
open Lib Use

/-- The calls that hand out memory. -/
inductive OutCall where
  | nvReadPublic | nvRead | createPrimary | create | readPublic | quote | pcrRead | policySecret | activateCredential
  deriving DecidableEq

/-- A call gives each output a new block, or fails and sets its outputs to NULL, or fails before it looks at
them. -/
inductive CallEnd where
  | succeeded | cleared | untouched
  deriving DecidableEq

/-- Pointer variables of the wrapper's functions. -/
inductive Var where
  | nvPublic | nvName | nvData
  | outPublic | creationData | creationHash | creationTicket
  | srkPublic | akPrivate | akPublic
  | pub | name | qualifiedName
  | quotedInfo | signature
  | pcrSelectionOut | pcrValues
  | timeout | policyTicket | certInfo
  deriving DecidableEq

/-- NULL, or a block by its number. -/
abbrev Vars := Var → Option Nat

def nulls : Vars := fun _ => none

/-- The world of the wrapper, whether each further failing call sets its outputs to NULL, and the blocks:
how many were handed out, what became of them and how the calls ended, newest first. -/
structure Memory where
  world : World
  clears : List Bool := []
  handed : Nat := 0
  uses : List (Use Nat) := []
  ends : List (OutCall × CallEnd) := []

abbrev Heaped := StateM Memory

section Library

/-- A library call without outputs. -/
def unowned {α : Type} (x : Esys α) : Heaped α := fun m => ((x m.world).1, { m with world := (x m.world).2 })

/-- New blocks for the variables, from n on. -/
def assign (vars : Vars) (n : Nat) : List Var → Vars
  | [] => vars
  | v :: outs => Function.update (assign vars (n + 1) outs) v (some n)

def clear (vars : Vars) (outs : List Var) : Vars := fun v => if v ∈ outs then none else vars v

/-- k blocks, from n on. -/
def takenFrom (n : Nat) : Nat → List (Use Nat)
  | 0 => []
  | k + 1 => .taken n :: takenFrom (n + 1) k

/-- A library call with these outputs; past the end of clears a failing call sets them to NULL. -/
def outputs {α : Type} (call : OutCall) (outs : List Var) (x : Esys (Option α)) (vars : Vars) :
    Heaped (Option α × Vars) := fun m =>
  let (r, world) := x m.world
  match r with
  | some a =>
    ((some a, assign vars m.handed outs), { m with
      world, handed := m.handed + outs.length, uses := takenFrom m.handed outs.length ++ m.uses
      ends := (call, .succeeded) :: m.ends })
  | none =>
    if m.clears.headD true then
      ((none, clear vars outs), { m with world, clears := m.clears.tail, ends := (call, .cleared) :: m.ends })
    else ((none, vars), { m with world, clears := m.clears.tail, ends := (call, .untouched) :: m.ends })

/-- Esys_Free; NULL is left alone. -/
def esysFree : Option Nat → Heaped Unit
  | none => return ()
  | some block => modify fun m => { m with uses := .released block :: m.uses }

/-- A call whose outputs the wrapper does not look into. -/
def calling : Esys (Option Unit) := do
  if ← call then return some () else return none

end Library

section Wrapper

/-- The loop of tpm_read_ek_cert, for as many rounds as there are sizes of pieces Esys_NV_Read returns. -/
def nvReadLoop (nvSize : Nat) : List Nat → Nat → Vars → Heaped Int
  | [], _, _ => return -1
  | size :: sizes, offset, vars => do
    if offset < nvSize then
      let (nvData, vars) ← outputs .nvRead [.nvData] calling vars
      match nvData with
      | none => return -1
      | some () =>
        esysFree (vars .nvData)
        nvReadLoop nvSize sizes (offset + size) (Function.update vars .nvData none)
    else return 0

/-- With the length of the caller's buffer, if it gave one. -/
def tpmReadEkCert (nvSize : Nat) (sizes : List Nat) (outCertLen : Option Nat) : Heaped Int := do
  if ← unowned call then
    let (nvPublic, vars) ← outputs .nvReadPublic [.nvPublic, .nvName] calling nulls
    match nvPublic with
    | none => return -1
    | some () =>
      esysFree (vars .nvName)
      esysFree (vars .nvPublic)
      match outCertLen with
      | none => return 0
      | some outCertLen => if outCertLen < nvSize then return -1 else nvReadLoop nvSize sizes 0 vars
  else return -1

def tpmReadEkPub (ctx : TpmContext) : Heaped (Option Key × TpmContext) := do
  unowned (flushHandle ctx.ekHandle)
  let ctx := { ctx with ekHandle := none }
  let (primary, vars) ← outputs .createPrimary [.outPublic, .creationData, .creationHash, .creationTicket]
    (esysCreatePrimary .endorsement .ekRsa) nulls
  esysFree (vars .creationData)
  esysFree (vars .creationHash)
  esysFree (vars .creationTicket)
  match primary with
  | none => return (none, ctx)
  | some (handle, key) =>
    let ctx := { ctx with ekHandle := some handle }
    let rc ← unowned call
    esysFree (vars .outPublic)
    if rc then return (some key, ctx) else return (none, ctx)

/-- Step 3 of tpm_create_ak. -/
def loadAk (ctx : TpmContext) (key : Key) (vars : Vars) : Heaped (Bool × TpmContext) := do
  unowned (flushHandle ctx.akHandle)
  let ctx := { ctx with akHandle := none }
  let ak ← unowned (esysLoad key)
  esysFree (vars .akPrivate)
  esysFree (vars .akPublic)
  match ak with
  | none => return (false, ctx)
  | some akHandle => return (true, { ctx with akHandle := some akHandle })

/-- Step 2 of tpm_create_ak; the variables of step 1 still hold what was freed there. -/
def createAk (ctx : TpmContext) (vars : Vars) : Heaped (Bool × TpmContext) := do
  let (created, vars) ← outputs .create [.akPrivate, .akPublic, .creationData, .creationHash, .creationTicket]
    esysCreate vars
  esysFree (vars .creationData)
  esysFree (vars .creationHash)
  esysFree (vars .creationTicket)
  match created with
  | none =>
    esysFree (vars .akPrivate)
    esysFree (vars .akPublic)
    return (false, ctx)
  | some key => loadAk ctx key vars

def tpmCreateAk (ctx : TpmContext) : Heaped (Bool × TpmContext) := do
  unowned (flushHandle ctx.srkHandle)
  let ctx := { ctx with srkHandle := none }
  let (primary, vars) ← outputs .createPrimary [.srkPublic, .creationData, .creationHash, .creationTicket]
    (esysCreatePrimary .owner .srkRsa) nulls
  esysFree (vars .srkPublic)
  esysFree (vars .creationData)
  esysFree (vars .creationHash)
  esysFree (vars .creationTicket)
  match primary with
  | none => return (false, ctx)
  | some (srkHandle, _) => createAk { ctx with srkHandle := some srkHandle } vars

def tpmGetAkPub (ctx : TpmContext) : Heaped (Option Key) := do
  match ctx.akHandle with
  | none => return none
  | some handle =>
    let (pub, vars) ← outputs .readPublic [.pub, .name, .qualifiedName] (esysReadPublic handle) nulls
    esysFree (vars .name)
    esysFree (vars .qualifiedName)
    match pub with
    | none => return none
    | some key =>
      let rc ← unowned call
      esysFree (vars .pub)
      if rc then return some key else return none

/-- With the length of the caller's buffer, if it gave one, and that of the name. -/
def tpmGetAkName (ctx : TpmContext) (outNameLen : Option Nat) (nameSize : Nat) : Heaped Int := do
  match ctx.akHandle with
  | none => return -1
  | some handle =>
    let (pub, vars) ← outputs .readPublic [.pub, .name, .qualifiedName] (esysReadPublic handle) nulls
    esysFree (vars .pub)
    esysFree (vars .qualifiedName)
    match pub, outNameLen with
    | none, _ => return -1
    | some _, none =>
      esysFree (vars .name)
      return 0
    | some _, some outNameLen =>
      if outNameLen < nameSize then
        esysFree (vars .name)
        return -1
      else
        esysFree (vars .name)
        return 0

/-- With the lengths of the buffers the caller gave, and those of what goes into them. -/
def tpmQuote (ctx : TpmContext) (outQuotedLen outSigLen : Option Nat) (quotedSize sigSize : Nat) : Heaped Int := do
  match ctx.akHandle with
  | none => return -1
  | some _ =>
    let (quote, vars) ← outputs .quote [.quotedInfo, .signature] calling nulls
    match quote with
    | none => return -1
    | some () =>
      if outQuotedLen.any (· < quotedSize) then
        esysFree (vars .quotedInfo)
        esysFree (vars .signature)
        return -1
      let rc ← unowned call
      if ¬ rc then
        esysFree (vars .quotedInfo)
        esysFree (vars .signature)
        return -1
      if outSigLen.any (· < sigSize) then
        esysFree (vars .quotedInfo)
        esysFree (vars .signature)
        return -1
      esysFree (vars .quotedInfo)
      esysFree (vars .signature)
      return 0

/-- With the digests the library returns, by their sizes. -/
def tpmPcrRead (pcrIndex : Nat) (outDigestLen : Option Nat) (digestSizes : List Nat) : Heaped Int := do
  if 23 < pcrIndex then return -1
  let (read, vars) ← outputs .pcrRead [.pcrSelectionOut, .pcrValues] calling nulls
  esysFree (vars .pcrSelectionOut)
  match read, digestSizes, outDigestLen with
  | none, _, _ => return -1
  | some (), [], _ =>
    esysFree (vars .pcrValues)
    return -1
  | some (), _ :: _, none =>
    esysFree (vars .pcrValues)
    return 0
  | some (), digestSize :: _, some outDigestLen =>
    if outDigestLen < digestSize then
      esysFree (vars .pcrValues)
      return -1
    else
      esysFree (vars .pcrValues)
      return 0

/-- Behind the policy session. -/
def activateInSession (outCertInfoLen : Option Nat) (certInfoSize : Nat) : Heaped Int := do
  let (policy, vars) ← outputs .policySecret [.timeout, .policyTicket] calling nulls
  esysFree (vars .timeout)
  esysFree (vars .policyTicket)
  match policy with
  | none =>
    let _flush ← unowned call
    return -1
  | some () =>
    let (activated, vars) ← outputs .activateCredential [.certInfo] calling vars
    match activated, outCertInfoLen with
    | none, _ => return -1
    | some (), none =>
      esysFree (vars .certInfo)
      return 0
    | some (), some outCertInfoLen =>
      if outCertInfoLen < certInfoSize then
        esysFree (vars .certInfo)
        return -1
      else
        esysFree (vars .certInfo)
        return 0

def tpmActivateCredential (ctx : TpmContext) (credBlobLen secretLen : Nat) (outCertInfoLen : Option Nat)
    (certInfoSize : Nat) : Heaped Int := do
  if ctx.akHandle = none ∨ ctx.ekHandle = none then return -1
  if idObjectCapacity < credBlobLen then return -1
  if encryptedSecretCapacity < secretLen then return -1
  if ← unowned call then activateInSession outCertInfoLen certInfoSize else return -1

end Wrapper
end RootHerald.Linux.Blocks
