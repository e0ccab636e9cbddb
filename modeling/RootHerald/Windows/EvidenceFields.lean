import RootHerald.Boot.SecureBootValidator
import RootHerald.Windows.EkIdentity

/-! The evidence of the Windows client, from what it collected. -/
namespace RootHerald.Windows
open Lib Boot

/-- The PCRs that are read and quoted. -/
def evidencePcrs : List Nat := [0, 1, 2, 3, 4, 7]

def pcrValuesJson (values : List (Nat × Bytes)) : Bytes :=
  text "\x7b\"sha256\":\x7b" ++
    [','.toUInt8].intercalate
      (values.map fun v => text "\"" ++ decimal v.1 ++ text "\":\"" ++ hexEncode v.2 ++ text "\"") ++
    text "\x7d\x7d"

def quoteFields (quoted signature nonce : Bytes) : Fields := .ofList [
  (text "quoted", base64Encode quoted),
  (text "signature", base64Encode signature),
  (text "nonce", base64Encode nonce)]

def boolText (b : Bool) : Bytes := if b then text "true" else text "false"

def secureBootEntries (chainReport : SecureBootChainReport) (eventAnalysis : EventLogAnalysis) :
    List (Bytes × Bytes) := [
  (text "secureBootEnabled", boolText chainReport.secureBootEnabled),
  (text "pkSubject", (chainReport.pkCerts.head?.map CertInfo.subject).getD []),
  (text "pkIssuer", (chainReport.pkCerts.head?.map CertInfo.issuer).getD []),
  (text "pkIsKnownOem", boolText chainReport.pkIsKnownOem),
  (text "pkOemName", chainReport.pkOemName),
  (text "kekHasMicrosoft", boolText chainReport.kekHasMicrosoft),
  (text "dbHasMicrosoftUefiCa",
    boolText (chainReport.dbHasMicrosoftUefiCa2011 || chainReport.dbHasMicrosoftUefiCa2023)),
  (text "dbHasMicrosoftWindowsPca", boolText chainReport.dbHasWindowsPca2011),
  (text "dbxHashCount", decimal chainReport.dbxHashCount),
  (text "totalMeasurements", decimal eventAnalysis.entries.length),
  (text "verifiedCount", decimal eventAnalysis.verifiedCount),
  (text "unknownCount", decimal eventAnalysis.unknownCount),
  (text "revokedCount", decimal eventAnalysis.revokedCount),
  (text "verdict", chainReport.verdict)]

def secureBootFields (chainReport : SecureBootChainReport) (eventAnalysis : EventLogAnalysis) : Fields :=
  .ofList (secureBootEntries chainReport eventAnalysis)

/-- What one collection gathered. -/
structure Evidence where
  pcrs : List (Nat × Bytes)
  quoted : Bytes
  signature : Bytes
  nonce : Bytes
  eventLog : Bytes
  /-- Of a log that is not empty. -/
  secureBoot : Option (SecureBootChainReport × EventLogAnalysis)
  ekCertDer : Bytes
  ekChain : List Bytes
  deviceId : Bytes

def secureBootJson (secureBoot : Option (SecureBootChainReport × EventLogAnalysis)) : Bytes :=
  match secureBoot with
  | none => text "null"
  | some (chainReport, eventAnalysis) => jsonBuild (secureBootFields chainReport eventAnalysis)

def evidenceFields (e : Evidence) : Fields :=
  let fields : Fields := .ofList [
    (text "pcrValues", pcrValuesJson e.pcrs),
    (text "quote", jsonBuild (quoteFields e.quoted e.signature e.nonce)),
    (text "secureBootChain", secureBootJson e.secureBoot)]
  let fields := if e.eventLog ≠ [] then fields.insert (text "eventLog") (base64Encode e.eventLog) else fields
  let fields := if 32 < e.ekCertDer.length then fields.insert (text "ekCertPem") (derToPem e.ekCertDer) else fields
  let fields := if e.ekChain ≠ [] then fields.insert (text "ekCertificateChain") (pemArray e.ekChain) else fields
  if e.deviceId ≠ [] then fields.insert (text "deviceId") e.deviceId else fields

end RootHerald.Windows
