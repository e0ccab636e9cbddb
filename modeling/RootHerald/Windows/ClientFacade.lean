import RootHerald.PublicAbi
import RootHerald.Windows.Enrollment

/-! The public ABI on Windows, over the driver calls, and what every build leaves behind an out pointer. -/
namespace RootHerald.Windows
open Lib

section Facade
variable (sys : System)

def mapRootHeraldStatus : RootHeraldResult → RootHeraldStatus
  | .ok => .ok
  | .noTpm => .tpmUnavailable
  | .network => .network
  | .attestationFailed => .server
  | .enrollmentFailed => .server
  | .notEnrolled => .notEnrolled
  | .invalidParam => .invalidArg
  | .alreadyEnrolled => .ok
  | .elevationRequired => .elevationRequired
  | .internal => .internal

def mockEnrollRequest : Bytes :=
  text ("\x7b\"ekPublicKey\":\"bW9jay1lay1wdWI=\",\"akPublicArea\":\"bW9jay1hay1wdWI=\"," ++
    "\"platform\":\"windows\"\x7d")

def mockActivation : Bytes :=
  text ("\x7b\"deviceId\":\"00000000-0000-4000-8000-000000000mock\"," ++
    "\"decryptedSecret\":\"bW9jay1zZWNyZXQ=\"\x7d")

/-- The arguments are checked before *out = NULL. -/
def clientEnrollBegin (client : Option RootHeraldClient) (out : OutPtr) (env : CallEnv) (inFlight : InFlight) :
    Tbs (Returned × InFlight) := do
  match client with
  | none => return ({ status := .invalidArg, out }, inFlight)
  | some impl =>
    if out.isNone then return ({ status := .invalidArg, out }, inFlight)
    let out := out.assign none
    if impl.mockTpm then return (emitHeapJson mockEnrollRequest env.allocated out, inFlight)
    let r ← rootHeraldEnrollBegin sys out.isSome env inFlight
    return ({ status := mapRootHeraldStatus r.status, out := out.assign r.json }, r.inFlight)

/-- The arguments are checked before *out = NULL, the challenge behind it. -/
def clientEnrollComplete (client : Option RootHeraldClient) (challengeJson : Option Bytes) (out : OutPtr)
    (allocated : Bool) (inFlight : InFlight) : Tbs (Returned × InFlight) := do
  match client with
  | none => return ({ status := .invalidArg, out }, inFlight)
  | some impl =>
    if out.isNone then return ({ status := .invalidArg, out }, inFlight)
    let out := out.assign none
    if isBlank challengeJson then return ({ status := .invalidArg, out }, inFlight)
    if impl.mockTpm then return (emitHeapJson mockActivation allocated out, inFlight)
    let r ← rootHeraldEnrollComplete sys challengeJson out.isSome allocated inFlight
    return ({ status := mapRootHeraldStatus r.status, out := out.assign r.json }, r.inFlight)

def clientCollectEvidence (nonceB64 : Option Bytes) (out : OutPtr) (env : CollectEnv) : Tbs (Checked Returned) := do
  if out.isNone then return .ok { status := .invalidArg, out }
  let out := out.assign none
  if isBlank nonceB64 then return .ok { status := .invalidArg, out }
  match ← rootHeraldCollectEvidence sys nonceB64 out.isSome env with
  | .error fault => return .error fault
  | .ok (status, json) => return .ok { status := mapRootHeraldStatus status, out := out.assign json }

end Facade

section Drivers
variable (sys : System)

/-- A status the facade maps to OK goes with a text, any other with none. -/
def Emits (status : RootHeraldResult) (json : Option Bytes) : Prop := json.isSome ↔ mapRootHeraldStatus status = .ok

theorem Emits.failed {status : RootHeraldResult} (h : mapRootHeraldStatus status ≠ .ok) : Emits status none :=
  iff_of_false Bool.false_ne_true h

theorem Emits.succeeded (json : Bytes) : Emits .ok (some json) := iff_of_true rfl rfl

variable {P : World → Prop}

private theorem failing {status : RootHeraldResult} {inFlight : InFlight} (h : mapRootHeraldStatus status ≠ .ok) :
    Triple P (Pure.pure { status, inFlight } : Tbs EnrollStep) fun r _ => Emits r.status r.json :=
  .pure fun _ _ => .failed h

theorem rootHeraldEnrollBegin_emits (outEnrollJson : Bool) (env : CallEnv) (inFlight : InFlight) :
    Triple P (rootHeraldEnrollBegin sys outEnrollJson env inFlight) fun r _ => Emits r.status r.json := by
  refine .ite (fun _ => failing (by decide)) fun _ => .ite (fun _ => failing (by decide))
    fun _ => ?_
  cases gatherEkEnrollData sys.sha256 env.sources with
  | none => exact failing (by decide)
  | some ek =>
    refine .bind (.any _) fun (opened, p) => .ite (fun _ => ?_) fun _ => .bind (.any _) fun (created, p) =>
      .ite (fun _ => ?_) fun _ => .ite (fun _ => ?_) fun _ => .ite (fun _ => ?_) fun _ => ?_
    · exact .bind (.any _) fun _ => failing (by decide)
    · exact .bind (.any _) fun _ => failing (by decide)
    · exact .bind (.any _) fun _ => .bind (.any _) fun _ => failing (by decide)
    · exact .bind (.any _) fun _ => .bind (.any _) fun _ => failing (by decide)
    · exact .bind (.any _) fun _ => .pure fun _ _ => .succeeded _

theorem rootHeraldEnrollComplete_emits (challengeJson : Option Bytes) (outActivateJson allocated : Bool)
    (inFlight : InFlight) :
    Triple P (rootHeraldEnrollComplete sys challengeJson outActivateJson allocated inFlight)
      fun r _ => Emits r.status r.json := by
  cases challengeJson with
  | none => exact failing (by decide)
  | some challenge =>
    refine .ite (fun _ => failing (by decide)) fun _ => ?_
    cases inFlight with
    | none => exact failing (by decide)
    | some provider =>
      refine .ite (fun _ => failing (by decide)) fun _ => .bind (.any _) fun secret =>
        .ite (fun _ => ?_) fun _ => .bind (.any _) fun (persisted, p) => .ite (fun _ => ?_) fun _ => ?_
      · exact .bind (.any _) fun _ => .bind (.any _) fun _ => failing (by decide)
      · exact .bind (.any _) fun _ => failing (by decide)
      · exact .bind (.any _) fun _ => .ite (fun _ => failing (by decide)) fun _ => .pure fun _ _ => .succeeded _

/-- Failed collections have a status the facade does not map to OK. -/
theorem collectInContext_benign {env : CollectEnv} {nonce : Bytes} {collected : Collected}
    (h : collectInContext sys env nonce = .ok collected) : collected.status ≠ .alreadyEnrolled := by
  unfold collectInContext at h
  by_cases hnonce : nonce = []
  · rw [if_pos hnonce] at h
    cases h
    decide
  rw [if_neg hnonce] at h
  cases hpcrs : readPcrs env.pcrRead evidencePcrs with
  | none =>
    rw [hpcrs] at h
    cases h
    decide
  | some pcrs =>
    rw [hpcrs] at h
    cases hquote : env.quoteOver nonce with
    | none =>
      simp only [hquote] at h
      cases h
      decide
    | some q =>
      simp only [hquote] at h
      obtain ⟨secureBoot, -, h⟩ := bind_eq_ok h
      obtain rfl := Except.ok.inj h
      exact (by decide : RootHeraldResult.ok ≠ .alreadyEnrolled)

theorem collectEvidenceFields_benign (env : CollectEnv) (nonceB64 : Bytes) :
    Triple P (collectEvidenceFields sys env nonceB64) fun r _ =>
      ∀ collected, r = .ok collected → collected.status ≠ .alreadyEnrolled := by
  refine .bind (.any _) fun provider => ?_
  cases provider with
  | none =>
    refine .pure fun _ _ _ h => ?_
    cases h
    decide
  | some provider =>
    refine .bind (.any _) fun (opened, tpmCmd) => .bind (.any _) fun _ => .bind (.any _) fun _ => .pure fun _ _ => ?_
    intro collected h
    split_ifs at h
    · exact collectInContext_benign sys h
    · cases h
      decide

theorem mapRootHeraldStatus_eq_ok {status : RootHeraldResult} (h : mapRootHeraldStatus status = .ok) :
    status = .ok ∨ status = .alreadyEnrolled := by
  cases status <;> first | exact .inl rfl | exact .inr rfl | cases h

theorem rootHeraldCollectEvidence_emits (nonceB64 : Option Bytes) (outEvidenceJson : Bool) (env : CollectEnv) :
    Triple P (rootHeraldCollectEvidence sys nonceB64 outEvidenceJson env) fun r _ =>
      ∀ status json, r = .ok (status, json) → Emits status json := by
  have hfailed {status : RootHeraldResult} (hstatus : mapRootHeraldStatus status ≠ .ok) {Q : World → Prop} :
      Triple Q (Pure.pure (.ok (status, none)) : Tbs (Checked (RootHeraldResult × Option Bytes))) fun r _ =>
        ∀ status json, r = .ok (status, json) → Emits status json := by
    refine .pure fun _ _ _ _ h => ?_
    cases h
    exact .failed hstatus
  cases nonceB64 with
  | none => exact hfailed (by decide)
  | some nonceB64 =>
    refine .ite (fun _ => hfailed (by decide)) fun _ => .bind (collectEvidenceFields_benign sys env nonceB64) fun r => ?_
    cases r with
    | error fault => exact .pure fun _ _ _ _ h => by cases h
    | ok collected =>
      refine .assume (fun _ h => h collected rfl) fun hbenign => .ite (fun hstatus => hfailed fun hok => ?_) fun _ =>
        .ite (fun _ => hfailed (by decide)) fun _ => .pure fun _ _ _ _ h => ?_
      · exact (mapRootHeraldStatus_eq_ok hok).elim hstatus hbenign
      · cases h
        exact .succeeded _

end Drivers

section Contract
variable (sys : System) {P : World → Prop}

private theorem Emits.nullOnError {status : RootHeraldResult} {json : Option Bytes} (h : Emits status json) :
    Returned.NullOnError ⟨mapRootHeraldStatus status, some json⟩ := ⟨json, rfl, h⟩

/-- With NULL for a client the out variable keeps its value. -/
def KeepsStale (client : Option RootHeraldClient) (prior : Option Bytes) : Prop := client = none ∧ prior ≠ none

private theorem stale_iff (prior : Option Bytes) :
    Returned.NullOnError ⟨.invalidArg, some prior⟩ ↔ ¬ KeepsStale none prior := by
  cases prior with
  | none => exact iff_of_true (.failed (by decide)) fun h => h.2 rfl
  | some json =>
    refine iff_of_false ?_ (not_not.mpr ⟨rfl, Option.some_ne_none json⟩)
    rintro ⟨value, hvalue, hiff⟩
    obtain rfl := Option.some.inj hvalue
    exact absurd (hiff.mp rfl) (by decide : RootHeraldStatus.invalidArg ≠ .ok)

theorem clientEnrollBegin_nullOnError_iff (client : Option RootHeraldClient) (prior : Option Bytes) (env : CallEnv)
    (inFlight : InFlight) : Triple P (clientEnrollBegin sys client (some prior) env inFlight) fun r _ =>
      r.1.NullOnError ↔ ¬ KeepsStale client prior := by
  cases client with
  | none => exact .pure fun _ _ => stale_iff prior
  | some impl =>
    have hclient {r : Returned × InFlight} (h : r.1.NullOnError) : r.1.NullOnError ↔ ¬ KeepsStale (some impl) prior :=
      iff_of_true h fun hstale => Option.some_ne_none impl hstale.1
    refine .ite (fun _ => .pure fun _ _ => hclient (emitHeapJson_nullOnError _ _)) fun _ => ?_
    exact .bind (rootHeraldEnrollBegin_emits sys true env inFlight) fun r => .pure fun _ h => hclient h.nullOnError

theorem clientEnrollComplete_nullOnError_iff (client : Option RootHeraldClient) (challengeJson : Option Bytes)
    (prior : Option Bytes) (allocated : Bool) (inFlight : InFlight) :
    Triple P (clientEnrollComplete sys client challengeJson (some prior) allocated inFlight) fun r _ =>
      r.1.NullOnError ↔ ¬ KeepsStale client prior := by
  cases client with
  | none => exact .pure fun _ _ => stale_iff prior
  | some impl =>
    have hclient {r : Returned × InFlight} (h : r.1.NullOnError) : r.1.NullOnError ↔ ¬ KeepsStale (some impl) prior :=
      iff_of_true h fun hstale => Option.some_ne_none impl hstale.1
    refine .ite (fun _ => .pure fun _ _ => hclient (.failed (by decide))) fun _ => .ite (fun _ => .pure fun _ _ =>
      hclient (emitHeapJson_nullOnError _ _)) fun _ => ?_
    exact .bind (rootHeraldEnrollComplete_emits sys challengeJson true allocated inFlight) fun r => .pure fun _ h =>
      hclient h.nullOnError

theorem clientCollectEvidence_nullOnError (nonceB64 : Option Bytes) (prior : Option Bytes) (env : CollectEnv) :
    Triple P (clientCollectEvidence sys nonceB64 (some prior) env) fun r _ =>
      ∀ returned, r = .ok returned → returned.NullOnError := by
  refine .ite (fun h => by cases h) fun _ => .ite (fun _ => .pure fun _ _ _ h => ?_) fun _ =>
    .bind (rootHeraldCollectEvidence_emits sys nonceB64 true env) fun r => ?_
  · cases h
    exact .failed (by decide)
  · cases r with
    | error fault => exact .pure fun _ _ _ h => by cases h
    | ok r =>
      refine .pure fun _ hemits _ h => ?_
      cases h
      exact (hemits r.1 r.2 rfl).nullOnError

end Contract

section Builds

inductive Build where
  | windows | linux | macos | stub
  deriving DecidableEq

/-- A call with an out pointer, by its other arguments. -/
inductive AbiCall where
  | enrollBegin (client : Option RootHeraldClient)
  | enrollComplete (client : Option RootHeraldClient) (challengeJson : Option Bytes)
  | collectEvidence (nonceB64 : Option Bytes)

/-- What a call finds: the system, the process and the TPM. -/
structure AbiEnv where
  sys : System
  env : CollectEnv
  inFlight : InFlight
  world : World

/-- A read out of bounds does not return. -/
def AbiCall.run (e : AbiEnv) (out : OutPtr) : Build → AbiCall → Checked Returned
  | .windows, .enrollBegin client =>
    .ok ((clientEnrollBegin e.sys client out e.env.toCallEnv e.inFlight).run e.world).1.1
  | .windows, .enrollComplete client challengeJson =>
    .ok ((clientEnrollComplete e.sys client challengeJson out e.env.allocated e.inFlight).run e.world).1.1
  | .windows, .collectEvidence nonceB64 => ((clientCollectEvidence e.sys nonceB64 out e.env).run e.world).1
  | .linux, .enrollBegin client => .ok (linuxEnrollBegin client out)
  | .linux, .enrollComplete client challengeJson => .ok (linuxEnrollComplete client challengeJson out)
  | .linux, .collectEvidence nonceB64 => .ok (linuxCollectEvidence nonceB64 out)
  | .macos, .enrollBegin client => .ok (macosEnrollBegin client out)
  | .macos, .enrollComplete client challengeJson => .ok (macosEnrollComplete client challengeJson out)
  | .macos, .collectEvidence nonceB64 => .ok (macosCollectEvidence nonceB64 out)
  | .stub, .enrollBegin client => .ok (stubEnrollBegin client e.env.allocated out)
  | .stub, .enrollComplete client challengeJson => .ok (stubEnrollComplete client challengeJson e.env.allocated out)
  | .stub, .collectEvidence nonceB64 => .ok (stubCollectEvidence nonceB64 e.env.allocated out)

/-- An enrollment call on Windows with NULL for a client, and a variable that is not NULL yet. -/
def AbiCall.LeavesStale (prior : Option Bytes) : Build → AbiCall → Prop
  | .windows, .enrollBegin client => KeepsStale client prior
  | .windows, .enrollComplete client _ => KeepsStale client prior
  | _, _ => False

/-- On every build, for every call and whatever stood behind the out pointer: a call that returns leaves
a text there on success alone, except where the Windows facade leaves what it found. -/
theorem out_pointer_iff (build : Build) (call : AbiCall) (prior : Option Bytes) (e : AbiEnv) :
    (∀ returned, call.run e (some prior) build = .ok returned → returned.NullOnError) ↔
      ¬ call.LeavesStale prior build := by
  have hone {r : Returned} {stale : Prop} (h : r.NullOnError ↔ ¬ stale) :
      (∀ returned, (Except.ok r : Checked Returned) = .ok returned → returned.NullOnError) ↔ ¬ stale :=
    ⟨fun hall => h.mp (hall r rfl), fun hstale returned heq => Except.ok.inj heq ▸ h.mpr hstale⟩
  have hnever {r : Returned} (h : r.NullOnError) :
      (∀ returned, (Except.ok r : Checked Returned) = .ok returned → returned.NullOnError) ↔ ¬ False :=
    hone (iff_of_true h id)
  cases build with
  | windows =>
    cases call with
    | enrollBegin client => exact hone (clientEnrollBegin_nullOnError_iff e.sys client prior _ e.inFlight e.world rfl)
    | enrollComplete client challengeJson =>
      exact hone (clientEnrollComplete_nullOnError_iff e.sys client challengeJson prior _ e.inFlight e.world rfl)
    | collectEvidence nonceB64 =>
      exact iff_of_true (clientCollectEvidence_nullOnError (P := fun _ => True) e.sys nonceB64 prior e.env e.world trivial) id
  | linux =>
    cases call with
    | enrollBegin client => exact hnever (notImplemented_nullOnError _ prior)
    | enrollComplete client challengeJson => exact hnever (notImplemented_nullOnError _ prior)
    | collectEvidence nonceB64 => exact hnever (notImplemented_nullOnError _ prior)
  | macos =>
    cases call with
    | enrollBegin client => exact hnever (notImplemented_nullOnError _ prior)
    | enrollComplete client challengeJson => exact hnever (notImplemented_nullOnError _ prior)
    | collectEvidence nonceB64 => exact hnever (notImplemented_nullOnError _ prior)
  | stub =>
    cases call with
    | enrollBegin client => exact hnever (emitStub_nullOnError _ _ _ prior)
    | enrollComplete client challengeJson => exact hnever (emitStub_nullOnError _ _ _ prior)
    | collectEvidence nonceB64 => exact hnever (emitStub_nullOnError _ _ _ prior)

def sampleAbiEnv : AbiEnv where
  sys := sampleSystem
  env := { sampleEnv with pcrRead := fun _ => [], quoteOver := fun _ => none, eventLog := [], deviceId := [] }
  inFlight := none
  world := { tpm := { openCredential := fun _ _ _ _ => none }, outcomes := [] }

/-- A text of an earlier call, still there behind INVALID_ARG. -/
theorem enrollBegin_leaves_stale : ¬ ∀ (build : Build) (call : AbiCall) (prior : Option Bytes) (e : AbiEnv)
    (returned : Returned), call.run e (some prior) build = .ok returned → returned.NullOnError := by
  intro h
  have hreturned := h .windows (.enrollBegin none) (some []) sampleAbiEnv ⟨.invalidArg, some (some [])⟩ rfl
  exact (stale_iff (some [])).mp hreturned ⟨rfl, Option.some_ne_none []⟩

end Builds
end RootHerald.Windows
