import RootHerald.Windows.Encoding
import RootHerald.Windows.JsonHelpers

/-! Endorsement key material of a Windows device, as enrollment and evidence pick it. -/
namespace RootHerald.Windows
open Lib

/-- What the sources of endorsement data answer. -/
structure Sources where
  /-- The Blob value of each subkey of EKCertStore\Certificates, where it can be read. -/
  certStore : List (Option Bytes)
  pcpOpens : Bool
  /-- PCP_EKPUB and PCP_RSA_EKNVCERT, empty when the property cannot be read. -/
  ekPublicKey : Bytes
  ekCertificate : Bytes
  /-- Status code and body of an HTTP GET. -/
  httpGet : Bytes → Int × Bytes
  /-- What the NV range of the ODCA intermediates holds, when a TBS context opens. -/
  odcaIntermediates : Option (List Bytes)
  /-- ReadWindowsTpmIntermediateStore. -/
  intermediateStore : List Bytes

/-- The first certificate with a SEQUENCE header and a two-byte length that fits. -/
def extractDerCertificate : Bytes → Bytes
  | [] => []
  | b :: blob =>
    match b, blob with
    | 0x30, 0x82 :: hi :: lo :: rest =>
      let total := 4 + beNat [hi, lo]
      if 64 < total ∧ total ≤ rest.length + 4 ∧ rest ≠ [] then (b :: blob).take total else extractDerCertificate blob
    | _, _ => extractDerCertificate blob

def readEkCertFromWindowsStore : List (Option Bytes) → Bytes
  | [] => []
  | none :: subkeys => readEkCertFromWindowsStore subkeys
  | some blob :: subkeys =>
    let cert := extractDerCertificate blob
    if cert ≠ [] then cert else readEkCertFromWindowsStore subkeys

section Amd

def kBcryptRsaPublicMagic : UInt32 := 0x31415352

def readU32Le (p : Bytes) (i : Nat) : UInt32 :=
  le32 (p.getD i 0) (p.getD (i + 1) 0) (p.getD (i + 2) 0) (p.getD (i + 3) 0)

/-- The modulus of a BCRYPT_RSAKEY_BLOB. Its offset is computed in 32 bits. -/
def extractRsaModulusFromEkPub (ekPubBlob : Bytes) : Bytes :=
  if ekPubBlob.length < 24 then []
  else
    let magic := readU32Le ekPubBlob 0
    let cbPublicExp := readU32Le ekPubBlob 8
    let cbModulus := readU32Le ekPubBlob 12
    if magic ≠ kBcryptRsaPublicMagic then []
    else if cbModulus = 0 ∨ 1024 < cbModulus then []
    else
      let modOffset := (24 + cbPublicExp).toNat
      if ekPubBlob.length < modOffset + cbModulus.toNat then []
      else (ekPubBlob.drop modOffset).take cbModulus.toNat

def fetchAmdAiaEkCert (sha256 : Bytes → Bytes) (httpGet : Bytes → Int × Bytes) (ekPubModulus : Bytes) : Bytes :=
  if ekPubModulus = [] then []
  else
    let digest := sha256 ekPubModulus
    if digest.length ≠ 32 then []
    else
      let (statusCode, body) := httpGet (text "https://ftpm.amd.com/pki/aia/" ++ hexEncode digest)
      if statusCode ≠ 200 then [] else body

end Amd

structure EkEnrollData where
  ekPub : Bytes
  ekCertPem : Bytes
  intermediates : List Bytes
  deriving DecidableEq

section Gather
variable (sha256 : Bytes → Bytes)

def kMaxIntermediates : Nat := 8

/-- One certificate of the Windows store joins those kept, unless its fingerprint was seen. -/
def mergeIntermediate (acc : List Bytes × List Bytes) (cert : Bytes) : List Bytes × List Bytes :=
  let (kept, seen) := acc
  if kMaxIntermediates ≤ kept.length then acc
  else
    let fp := sha256 cert
    if fp ∈ seen then acc else (kept ++ [cert], if fp ≠ [] then seen ++ [fp] else seen)

def mergeIntermediates (odca winStore : List Bytes) : List Bytes :=
  let seen := (odca.map sha256).filter (· ≠ [])
  (winStore.foldl (mergeIntermediate sha256) (odca, seen)).1.take kMaxIntermediates

/-- Windows' cached certificate, then the PCP NV read, then the AMD AIA fetch. -/
def gatherEkCertPem (s : Sources) : Bytes :=
  let ekCert := readEkCertFromWindowsStore s.certStore
  let ekCert := if ekCert.length ≤ 32 then s.ekCertificate else ekCert
  if 32 < ekCert.length then derToPem ekCert
  else
    let modulus := extractRsaModulusFromEkPub s.ekPublicKey
    if modulus ≠ [] then
      let amdCert := fetchAmdAiaEkCert sha256 s.httpGet modulus
      if amdCert ≠ [] then derToPem amdCert else []
    else []

def gatherIntermediates (s : Sources) : List Bytes :=
  match s.odcaIntermediates with
  | none => []
  | some odca => mergeIntermediates sha256 odca s.intermediateStore

def gatherEkEnrollData (s : Sources) : Option EkEnrollData :=
  if ¬ s.pcpOpens then none
  else if s.ekPublicKey = [] then none
  else some ⟨s.ekPublicKey, gatherEkCertPem sha256 s, gatherIntermediates sha256 s⟩

theorem gatherEkEnrollData_eq_some {s : Sources} {ek : EkEnrollData} (h : gatherEkEnrollData sha256 s = some ek) :
    s.pcpOpens = true ∧ s.ekPublicKey ≠ [] ∧
      ek = ⟨s.ekPublicKey, gatherEkCertPem sha256 s, gatherIntermediates sha256 s⟩ := by
  unfold gatherEkEnrollData at h
  split_ifs at h with hopens hpub
  exact ⟨hopens, hpub, (Option.some.inj h).symm⟩

end Gather

/-- A JSON array of certificates. -/
def pemArray (certs : List Bytes) : Bytes :=
  '['.toUInt8 :: ([','.toUInt8].intercalate (certs.map fun cert => quoted (derToPem cert)) ++ [']'.toUInt8])

/-- Body of POST /api/v1/devices/enroll. -/
def buildEnrollFields (ek : EkEnrollData) (akPub : Bytes) : Fields :=
  let fields : Fields := .ofList [
    (text "ekPublicKey", base64Encode ek.ekPub),
    (text "akPublicArea", base64Encode akPub),
    (text "platform", text "windows")]
  let fields := if ek.ekCertPem ≠ [] then fields.insert (text "ekCertPem") ek.ekCertPem else fields
  if ek.intermediates ≠ [] then fields.insert (text "ekCertificateChain") (pemArray ek.intermediates) else fields

/-- The id the evidence and the status carry. -/
def deriveLocalDeviceId (sha1 sha256 : Bytes → Bytes) (s : Sources) : Bytes :=
  let ekCertDer := readEkCertFromWindowsStore s.certStore
  if 32 < ekCertDer.length then computeDeviceIdFromFingerprint sha1 (sha256 ekCertDer)
  else if ¬ s.pcpOpens then []
  else if s.ekPublicKey = [] then []
  else computeDeviceIdFromFingerprint sha1 (sha256 s.ekPublicKey)

end RootHerald.Windows
