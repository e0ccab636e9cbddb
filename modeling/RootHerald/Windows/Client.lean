import RootHerald.Windows.EvidenceFields
import RootHerald.Windows.TbsKeyProvider
import RootHerald.Protocol

/-! The driver calls of the Windows client. The provider of an enrollment in flight stays in the
process between the calls. -/
namespace RootHerald.Windows
open Lib Boot

/-- Functions of the system. -/
structure System where
  sha1 : Bytes → Bytes
  sha256 : Bytes → Bytes
  /-- CryptStringToBinaryA. -/
  base64Decode : Bytes → Bytes
  /-- The decoder behind ParseDerCertificate. -/
  parseDerCertificate : Bytes → CertInfo

/-- g_enrollProvider. -/
abbrev InFlight := Option TbsKeyProvider

/-- Status, the text handed out, and the enrollment in flight. -/
structure EnrollStep where
  status : RootHeraldResult
  json : Option Bytes := none
  inFlight : InFlight
  deriving DecidableEq

/-- The environment of one call: whether the process is elevated, the sources of endorsement data,
and whether malloc succeeds. -/
structure CallEnv where
  elevated : Bool
  sources : Sources
  allocated : Bool

section Enrollment
variable (sys : System)

/-- What becomes of the provider held so far. -/
def destroy : InFlight → Tbs Unit
  | some provider => provider.close
  | none => return ()

def rootHeraldEnrollBegin (outEnrollJson : Bool) (env : CallEnv) (inFlight : InFlight) : Tbs EnrollStep := do
  if ¬ outEnrollJson then return { status := .invalidParam, inFlight }
  if ¬ env.elevated then return { status := .elevationRequired, inFlight }
  match gatherEkEnrollData sys.sha256 env.sources with
  | none => return { status := .enrollmentFailed, inFlight }
  | some ek =>
    let (opened, provider) ← TbsKeyProvider.openContext {}
    if ¬ opened then
      provider.close
      return { status := .enrollmentFailed, inFlight }
    let (created, provider) ← provider.createAk
    if ¬ created then
      provider.close
      return { status := .enrollmentFailed, inFlight }
    let akPub := provider.akPubArea
    if akPub = [] then
      let provider ← provider.deleteAk
      provider.close
      return { status := .enrollmentFailed, inFlight }
    let json := jsonBuild (buildEnrollFields ek akPub)
    if ¬ env.allocated then
      let provider ← provider.deleteAk
      provider.close
      return { status := .internal, inFlight }
    destroy inFlight
    return { status := .ok, json := some json, inFlight := some provider }

def activateFields (deviceId secret : Bytes) : Fields := .ofList [
  (text "deviceId", deviceId),
  (text "decryptedSecret", base64Encode secret)]

/-- Behind the checks of the challenge. -/
def completeEnrollment (deviceId credBlob encSecret : Bytes) (allocated : Bool) (provider : TbsKeyProvider) :
    Tbs EnrollStep := do
  let secret ← provider.activateCredential (sys.base64Decode credBlob) (sys.base64Decode encSecret)
  if secret = [] then
    let provider ← provider.deleteAk
    provider.close
    return { status := .attestationFailed, inFlight := none }
  let (persisted, provider) ← provider.persistAk
  if ¬ persisted then
    provider.close
    return { status := .enrollmentFailed, inFlight := none }
  provider.close
  let json := jsonBuild (activateFields deviceId secret)
  if ¬ allocated then return { status := .internal, inFlight := none }
  return { status := .ok, json := some json, inFlight := none }

def rootHeraldEnrollComplete (challengeJson : Option Bytes) (outActivateJson allocated : Bool) (inFlight : InFlight) :
    Tbs EnrollStep := do
  match challengeJson with
  | none => return { status := .invalidParam, inFlight }
  | some challenge =>
    if ¬ outActivateJson then return { status := .invalidParam, inFlight }
    match inFlight with
    | none => return { status := .notEnrolled, inFlight }
    | some provider =>
      let deviceId := jsonGet challenge (text "deviceId")
      let credBlob := jsonGet challenge (text "credentialBlob")
      let encSecret := jsonGet challenge (text "encryptedSecret")
      if deviceId = [] ∨ credBlob = [] ∨ encSecret = [] then return { status := .invalidParam, inFlight }
      completeEnrollment sys deviceId credBlob encSecret allocated provider

end Enrollment

section Collection
variable (sys : System)

/-- opened && x. -/
def andAlso (opened : Bool) (x : Tbs Bool) : Tbs Bool := if opened then x else return false

/-- An opened provider with the AK present, or none. -/
def selectEnrolledProvider : Tbs (Option TbsKeyProvider) := do
  let (opened, p) ← TbsKeyProvider.openContext {}
  let loaded ← andAlso opened p.loadAk
  if loaded then return some p
  else
    p.close
    return none

def anyAkPresent : Tbs Bool := do
  let (opened, tbs) ← TbsKeyProvider.openContext {}
  let present ← andAlso opened tbs.akExists
  tbs.close
  return present

/-- What PcrRead, Quote and ReadEventLog answer, and g_deviceId. -/
structure CollectEnv extends CallEnv where
  pcrRead : Nat → Bytes
  quoteOver : Bytes → Option (Bytes × Bytes)
  eventLog : Bytes
  deviceId : Bytes

structure Collected where
  status : RootHeraldResult
  fields : Fields := .empty
  reason : Bytes := []

def readPcrs (pcrRead : Nat → Bytes) : List Nat → Option (List (Nat × Bytes))
  | [] => some []
  | idx :: pcrs => if pcrRead idx = [] then none else (readPcrs pcrRead pcrs).map ((idx, pcrRead idx) :: ·)

def collectSecureBoot (eventLog : Bytes) : Checked (Option (SecureBootChainReport × EventLogAnalysis)) := do
  if eventLog = [] then return none
  let chainReport ← validateSecureBootChain sys.parseDerCertificate eventLog
  let eventAnalysis ← parseAndAnalyzeEventLog eventLog
  return some (chainReport, eventAnalysis)

/-- Steps 3 to 6, in an open context. -/
def collectInContext (env : CollectEnv) (nonce : Bytes) : Checked Collected := do
  if nonce = [] then return { status := .invalidParam, reason := text "Invalid nonce" }
  match readPcrs env.pcrRead evidencePcrs with
  | none => return { status := .attestationFailed, reason := text "PCR read failed" }
  | some pcrs =>
    match env.quoteOver nonce with
    | none => return { status := .attestationFailed, reason := text "Quote failed" }
    | some (quoted, signature) =>
      let secureBoot ← collectSecureBoot sys env.eventLog
      let deviceId := if env.deviceId = [] then deriveLocalDeviceId sys.sha1 sys.sha256 env.sources else env.deviceId
      return { status := .ok, fields := evidenceFields {
        pcrs, quoted, signature, nonce, eventLog := env.eventLog, secureBoot,
        ekCertDer := readEkCertFromWindowsStore env.sources.certStore,
        ekChain := env.sources.odcaIntermediates.getD [], deviceId } }

/-- A read outside the event log is a fault. -/
def collectEvidenceFields (env : CollectEnv) (nonceB64 : Bytes) : Tbs (Checked Collected) := do
  match ← selectEnrolledProvider with
  | none => return .ok { status := .notEnrolled, reason := text "Not enrolled" }
  | some provider =>
    let (opened, tpmCmd) ← tpmOpen none
    let collected := if opened then collectInContext sys env (sys.base64Decode nonceB64)
      else .ok { status := .noTpm, reason := text "TPM unavailable" }
    tpmClose tpmCmd
    provider.close
    return collected

def rootHeraldCollectEvidence (nonceB64 : Option Bytes) (outEvidenceJson : Bool) (env : CollectEnv) :
    Tbs (Checked (RootHeraldResult × Option Bytes)) := do
  match nonceB64 with
  | none => return .ok (.invalidParam, none)
  | some nonceB64 =>
    if ¬ outEvidenceJson then return .ok (.invalidParam, none)
    match ← collectEvidenceFields sys env nonceB64 with
    | .error fault => return .error fault
    | .ok collected =>
      if collected.status ≠ .ok then return .ok (collected.status, none)
      let json := jsonBuild collected.fields
      if ¬ env.allocated then return .ok (.internal, none)
      return .ok (.ok, some json)

end Collection

section Status
variable (sys : System)

structure RootHeraldDeviceStatus where
  isEnrolled : Bool := false
  deviceId : Bytes := []
  platform : Bytes := []
  hasTpm : Bool := false
  deriving DecidableEq

/-- pcpAvailable is whether the PCP provider opens. -/
def rootHeraldGetStatus (outStatus pcpAvailable : Bool) (env : CallEnv) :
    Tbs (RootHeraldResult × RootHeraldDeviceStatus) := do
  if ¬ outStatus then return (.invalidParam, {})
  let isEnrolled ← anyAkPresent
  let deviceId := if pcpAvailable then deriveLocalDeviceId sys.sha1 sys.sha256 env.sources else []
  return (.ok, { isEnrolled, deviceId, platform := text "windows", hasTpm := pcpAvailable })

end Status
end RootHerald.Windows
