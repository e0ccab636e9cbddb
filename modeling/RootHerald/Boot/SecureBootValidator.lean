import RootHerald.Boot.EventLogParser

/-! The Secure Boot chain validator: EFI signature lists out of PCR 7 variable events, and the
verdict on the keys found there. The certificate parser is a parameter. -/
namespace RootHerald.Boot
open Lib

structure CertInfo where
  subject : Bytes := []
  issuer : Bytes := []
  isMicrosoftCert : Bool := false
  isKnownOem : Bool := false
  oemName : Bytes := []
  deriving DecidableEq

structure SecureBootChainReport where
  secureBootEnabled : Bool := false
  pkCerts : List CertInfo := []
  pkIsKnownOem : Bool := false
  pkOemName : Bytes := []
  kekCerts : List CertInfo := []
  kekHasMicrosoft : Bool := false
  dbCerts : List CertInfo := []
  dbHasMicrosoftUefiCa2011 : Bool := false
  dbHasMicrosoftUefiCa2023 : Bool := false
  dbHasWindowsPca2011 : Bool := false
  dbxHashCount : Nat := 0
  chainValid : Bool := false
  verdict : Bytes := []
  warnings : List Bytes := []
  errors : List Bytes := []
  deriving DecidableEq

def EFI_CERT_X509_GUID : Bytes :=
  [0xa1, 0x59, 0xc0, 0xa5, 0xe4, 0x94, 0xa7, 0x4a, 0x87, 0xb5, 0xab, 0x15, 0x5c, 0x2b, 0xf0, 0x72]

section SignatureLists
variable (parseDerCertificate : Bytes → CertInfo)

/-- The entry loop of one X.509 list at p, entered with sigSize above 16. The first bound is summed
in 32 bits, the second in 64. -/
def signatureEntriesLoop (p : Bytes) (listSize sigSize : UInt32) (offset : Nat) (certs : List CertInfo) :
    Checked (List CertInfo) :=
  if _h : 16 < sigSize.toNat ∧ offset + sigSize.toNat ≤ (28 + listSize - 28 + 28).toNat ∧
      offset + sigSize.toNat ≤ listSize.toNat then do
    let certLen := (sigSize - 16).toNat
    let certs ←
      if 0 < certLen ∧ certLen < 65536 then do
        let certInfo := parseDerCertificate (← readRange (p.drop (offset + 16)) certLen)
        pure (if certInfo.subject = [] then certs else certs ++ [certInfo])
      else pure certs
    signatureEntriesLoop p listSize sigSize (offset + sigSize.toNat) certs
  else return certs
termination_by listSize.toNat - offset

/-- The list loop with sigListRemaining bytes declared at sigListData. -/
def signatureListLoop (sigListData : Bytes) (sigListRemaining : Nat) (certs : List CertInfo) :
    Checked (List CertInfo) :=
  if 28 ≤ sigListRemaining then do
    let listSize ← readU32LE (sigListData.drop 16)
    let headerSize ← readU32LE (sigListData.drop 20)
    let sigSize ← readU32LE (sigListData.drop 24)
    if _h : listSize.toNat = 0 ∨ sigListRemaining < listSize.toNat then return certs
    else
      let isX509 := (← readRange sigListData 16) = EFI_CERT_X509_GUID
      let certs ←
        if isX509 ∧ 16 < sigSize.toNat then
          signatureEntriesLoop parseDerCertificate sigListData listSize sigSize (28 + headerSize).toNat certs
        else pure certs
      signatureListLoop (sigListData.drop listSize.toNat) (sigListRemaining - listSize.toNat) certs
  else return certs
termination_by sigListRemaining

def parseEfiSignatureList (variableData : Bytes) : Checked (List CertInfo) := do
  if variableData.length < 32 then return []
  let nameLen ← readU64LE (variableData.drop 16)
  let dataLen ← readU64LE (variableData.drop 24)
  let dataOffset := 32 + nameLen * 2
  if variableData.length < (dataOffset + dataLen).toNat then return []
  signatureListLoop parseDerCertificate (variableData.drop dataOffset.toNat) dataLen.toNat []

end SignatureLists

/-- The validator drops a unit outside ASCII. -/
def extractVarName (data : Bytes) : Checked Bytes :=
  variableName (fun name ch => if ch < 128 then name ++ [ch.toUInt8] else name) data

section Chain
variable (parseDerCertificate : Bytes → CertInfo)

def processPk (report : SecureBootChainReport) (certs : List CertInfo) : SecureBootChainReport :=
  certs.foldl (fun r c => if c.isKnownOem then { r with pkIsKnownOem := true, pkOemName := c.oemName } else r)
    { report with pkCerts := certs }

def processKek (report : SecureBootChainReport) (certs : List CertInfo) : SecureBootChainReport :=
  certs.foldl (fun r c => if c.isMicrosoftCert then { r with kekHasMicrosoft := true } else r)
    { report with kekCerts := certs }

/-- One certificate of a db list, matched by subject. -/
def processDbCert (r : SecureBootChainReport) (c : CertInfo) : SecureBootChainReport :=
  { r with
    dbHasMicrosoftUefiCa2011 := r.dbHasMicrosoftUefiCa2011 ||
      contains c.subject (text "Microsoft Corporation UEFI CA 2011")
    dbHasMicrosoftUefiCa2023 := r.dbHasMicrosoftUefiCa2023 ||
      (contains c.subject (text "Microsoft UEFI CA 2023") || contains c.subject (text "Windows UEFI CA 2023"))
    dbHasWindowsPca2011 := r.dbHasWindowsPca2011 ||
      contains c.subject (text "Microsoft Windows Production PCA 2011") }

def processDb (report : SecureBootChainReport) (certs : List CertInfo) : SecureBootChainReport :=
  certs.foldl processDbCert { report with dbCerts := certs }

/-- What one key-database event assigns, by the variable's name. -/
def processVariable (report : SecureBootChainReport) (varName : Bytes) (certs : List CertInfo) :
    SecureBootChainReport :=
  if varName = text "PK" then processPk report certs
  else if varName = text "KEK" then processKek report certs
  else if varName = text "db" then processDb report certs
  else if varName = text "dbx" then { report with dbxHashCount := certs.length }
  else report

/-- One pass of the loop over the analysed entries. -/
def processEntry (report : SecureBootChainReport) (entry : EventLogEntry) : Checked SecureBootChainReport := do
  if entry.pcrIndex ≠ 7 then return report
  if entry.eventType ≠ EV_EFI_VARIABLE_DRIVER_CONFIG ∧ entry.eventType ≠ EV_EFI_VARIABLE_BOOT then return report
  let varName ← extractVarName entry.eventData
  let certs ← parseEfiSignatureList parseDerCertificate entry.eventData
  return processVariable report varName certs

/-- The first error decides, then the first warning. -/
def finalVerdict (report : SecureBootChainReport) : SecureBootChainReport :=
  match report.errors, report.warnings with
  | e :: _, _ => { report with chainValid := false, verdict := text "FAIL: " ++ e }
  | [], w :: _ => { report with chainValid := true, verdict := text "WARNING: " ++ w }
  | [], [] => { report with
      chainValid := true
      verdict := text "PASS: Secure Boot chain fully validated — PK from " ++ report.pkOemName ++
        text ", Microsoft UEFI CA in db, Microsoft KEK present" }

/-- Warnings, errors and verdict on the collected keys. -/
def judgeChain (report : SecureBootChainReport) : SecureBootChainReport :=
  if ¬ report.secureBootEnabled then
    { report with errors := report.errors ++ [text "Secure Boot is DISABLED"]
                  verdict := text "FAIL: Secure Boot disabled" }
  else if report.pkCerts = [] then
    { report with errors := report.errors ++ [text "No Platform Key (PK) found — Secure Boot is in setup mode"]
                  verdict := text "FAIL: No Platform Key" }
  else
    let report := if report.pkIsKnownOem then report else
      { report with warnings := report.warnings ++ [text "Platform Key issuer not recognized as a known OEM: " ++
          (report.pkCerts.head?.map CertInfo.subject).getD (text "(none)")] }
    let report := if report.kekHasMicrosoft then report else
      { report with errors := report.errors ++
          [text "KEK does not contain Microsoft's KEK certificate — boot chain may not be controlled by Microsoft"] }
    let report := if report.dbHasMicrosoftUefiCa2011 || report.dbHasMicrosoftUefiCa2023 then report else
      { report with errors := report.errors ++
          [text ("db does not contain Microsoft's UEFI CA — " ++
            "only Microsoft-signed boot components are trusted on standard systems")] }
    finalVerdict report

def validateSecureBootChain (rawEventLog : Bytes) : Checked SecureBootChainReport := do
  let analysis ← parseAndAnalyzeEventLog rawEventLog
  let report ← analysis.entries.foldlM (processEntry parseDerCertificate)
    { secureBootEnabled := analysis.secureBootEnabled }
  return judgeChain report

end Chain
end RootHerald.Boot
