import RootHerald.Linux.TpmEsapi

/-! The ESAPI wrapper with its sessions: the same functions, each library call recorded with the object
or session it opens or flushes. Without the record they are the functions of the wrapper. -/
namespace RootHerald.Linux.Resources
open Lib

/-- What the TPM keeps until it is flushed. -/
inductive Resource where
  | object (handle : Handle)
  | session (n : Nat)
  deriving DecidableEq, Repr

/-- A call and its outcome; an opening call that failed opened none. -/
inductive EsapiCall where
  | createPrimary (opened : Option Handle)
  | create (rc : Bool)
  | load (opened : Option Handle)
  | startAuthSession (opened : Option Nat)
  | policySecret (rc : Bool)
  | activateCredential (session : Nat) (rc : Bool)
  | flushContext (resource : Resource) (rc : Bool)
  deriving DecidableEq, Repr

/-- The world of the wrapper, the sessions started, and the calls made, newest first. -/
structure Recorded where
  world : World
  started : Nat := 0
  calls : List EsapiCall := []

abbrev Traced := StateM Recorded

section Library

/-- A library call without a resource. -/
def unrecorded {α : Type} (x : Esys α) : Traced α := fun s => ((x s.world).1, { s with world := (x s.world).2 })

def recorded {α : Type} (x : Esys α) (entry : α → EsapiCall) : Traced α := fun s =>
  ((x s.world).1, { s with world := (x s.world).2, calls := entry (x s.world).1 :: s.calls })

def esysCreatePrimary (hierarchy : Hierarchy) (template : Template) : Traced (Option (Handle × Key)) :=
  recorded (Linux.esysCreatePrimary hierarchy template) fun r => .createPrimary (r.map Prod.fst)

def esysCreate : Traced (Option Key) := recorded Linux.esysCreate fun r => .create r.isSome

def esysLoad (key : Key) : Traced (Option Handle) := recorded (Linux.esysLoad key) .load

/-- A flush of a loaded object; its return code is not looked at. -/
def esysFlushContext (handle : Handle) : Traced Unit := fun s =>
  ((), { s with world := (Linux.esysFlushContext handle s.world).2
                calls := .flushContext (.object handle) (call s.world).1 :: s.calls })

def esysStartAuthSession : Traced (Option Nat) := fun s =>
  if (call s.world).1 then
    (some s.started, { s with
      world := (call s.world).2, started := s.started + 1, calls := .startAuthSession (some s.started) :: s.calls })
  else (none, { s with world := (call s.world).2, calls := .startAuthSession none :: s.calls })

def esysPolicySecret : Traced Bool := recorded call .policySecret

def esysActivateCredential (session : Nat) : Traced Bool := recorded call (.activateCredential session)

def esysFlushSession (session : Nat) : Traced Bool := recorded call (.flushContext (.session session))

end Library

def flushHandle : Option Handle → Traced Unit
  | some handle => esysFlushContext handle
  | none => return ()

def tpmClose (ctx : TpmContext) : Traced Unit := do
  flushHandle ctx.akHandle
  flushHandle ctx.srkHandle
  flushHandle ctx.ekHandle

def tpmReadEkPub (ctx : TpmContext) : Traced (Option Key × TpmContext) := do
  flushHandle ctx.ekHandle
  let ctx := { ctx with ekHandle := none }
  match ← esysCreatePrimary .endorsement .ekRsa with
  | none => return (none, ctx)
  | some (handle, key) =>
    let ctx := { ctx with ekHandle := some handle }
    if ← unrecorded call then return (some key, ctx) else return (none, ctx)

def tpmCreateAk (ctx : TpmContext) : Traced (Bool × TpmContext) := do
  flushHandle ctx.srkHandle
  let ctx := { ctx with srkHandle := none }
  match ← esysCreatePrimary .owner .srkRsa with
  | none => return (false, ctx)
  | some (srkHandle, _) =>
    let ctx := { ctx with srkHandle := some srkHandle }
    match ← esysCreate with
    | none => return (false, ctx)
    | some key =>
      flushHandle ctx.akHandle
      let ctx := { ctx with akHandle := none }
      match ← esysLoad key with
      | none => return (false, ctx)
      | some akHandle => return (true, { ctx with akHandle := some akHandle })

/-- The session is flushed when PolicySecret fails, and left to ActivateCredential otherwise. -/
def tpmActivateCredential (ctx : TpmContext) (credBlobLen secretLen : Nat) : Traced Bool := do
  if ctx.akHandle = none ∨ ctx.ekHandle = none then return false
  if idObjectCapacity < credBlobLen then return false
  if encryptedSecretCapacity < secretLen then return false
  match ← esysStartAuthSession with
  | none => return false
  | some policySession =>
    if ← esysPolicySecret then esysActivateCredential policySession
    else
      let _flush ← esysFlushSession policySession
      return false

section Projection
variable {α β γ δ : Type}

/-- Without the record a traced program is the program of the wrapper, its result seen through e. -/
def Projects (e : α → γ) (x : Traced α) (y : Esys γ) : Prop :=
  ∀ s, e (x s).1 = (y s.world).1 ∧ (x s).2.world = (y s.world).2

theorem Projects.pure (a : α) : Projects id (Pure.pure a) (Pure.pure a) := fun _ => ⟨rfl, rfl⟩

theorem Projects.bind {e : α → γ} {e' : β → δ} {x : Traced α} {y : Esys γ} {f : α → Traced β} {g : γ → Esys δ}
    (hx : Projects e x y) (hf : ∀ a, Projects e' (f a) (g (e a))) : Projects e' (x >>= f) (y >>= g) := by
  intro s
  obtain ⟨hresult, hworld⟩ := hx s
  have h := hf (x s).1 (x s).2
  rw [hworld, hresult] at h
  exact h

theorem Projects.ite {e : α → γ} {c : Prop} [Decidable c] {x x' : Traced α} {y y' : Esys γ} (hx : Projects e x y)
    (hx' : Projects e x' y') : Projects e (if c then x else x') (if c then y else y') := by
  split_ifs
  · exact hx
  · exact hx'

theorem unrecorded_projects (y : Esys α) : Projects id (unrecorded y) y := fun _ => ⟨rfl, rfl⟩

theorem recorded_projects (y : Esys α) (entry : α → EsapiCall) : Projects id (recorded y entry) y :=
  fun _ => ⟨rfl, rfl⟩

theorem esysStartAuthSession_projects : Projects Option.isSome esysStartAuthSession call := by
  intro s
  unfold esysStartAuthSession
  cases (call s.world).1 <;> exact ⟨rfl, rfl⟩

theorem flushHandle_projects (handle : Option Handle) : Projects id (flushHandle handle) (Linux.flushHandle handle) := by
  cases handle with
  | none => exact .pure ()
  | some handle => exact fun _ => ⟨rfl, rfl⟩

theorem tpmClose_projects (ctx : TpmContext) : Projects id (tpmClose ctx) (Linux.tpmClose ctx) :=
  (flushHandle_projects _).bind fun _ => (flushHandle_projects _).bind fun _ => flushHandle_projects _

theorem tpmReadEkPub_projects (ctx : TpmContext) : Projects id (tpmReadEkPub ctx) (Linux.tpmReadEkPub ctx) := by
  refine (flushHandle_projects _).bind fun _ => (recorded_projects _ _).bind fun primary => ?_
  cases primary with
  | none => exact .pure _
  | some p => exact (unrecorded_projects call).bind fun rc => .ite (.pure _) (.pure _)

theorem tpmCreateAk_projects (ctx : TpmContext) : Projects id (tpmCreateAk ctx) (Linux.tpmCreateAk ctx) := by
  refine (flushHandle_projects _).bind fun _ => (recorded_projects _ _).bind fun primary => ?_
  cases primary with
  | none => exact .pure _
  | some p =>
    refine (recorded_projects _ _).bind fun key => ?_
    cases key with
    | none => exact .pure _
    | some key =>
      refine (flushHandle_projects _).bind fun _ => (recorded_projects _ _).bind fun ak => ?_
      cases ak with
      | none => exact .pure _
      | some ak => exact .pure _

theorem tpmActivateCredential_projects (ctx : TpmContext) (credBlobLen secretLen : Nat) :
    Projects id (tpmActivateCredential ctx credBlobLen secretLen)
      (Linux.tpmActivateCredential ctx credBlobLen secretLen) := by
  refine .ite (.pure _) (.ite (.pure _) (.ite (.pure _) (esysStartAuthSession_projects.bind fun session => ?_)))
  cases session with
  | none => exact .pure _
  | some session =>
    refine (recorded_projects _ _).bind fun rc => .ite (recorded_projects _ _) ?_
    exact (recorded_projects _ _).bind fun _ => .pure _

end Projection
end RootHerald.Linux.Resources
