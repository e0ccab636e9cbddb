import RootHerald.Windows.EkIdentity
import Mathlib.Data.List.Nodup
import Mathlib.Data.Set.Function

/-! The device id of evidence and status against the id the server derives from the enroll body. -/
namespace RootHerald.Windows
open Lib

section Server
variable (sha1 sha256 : Bytes → Bytes)

def deviceIdOf (identity : Bytes) : Bytes := computeDeviceIdFromFingerprint sha1 (sha256 identity)

/-- What the server derives from an enroll body: the id of the certificate when the body carries one,
of the public key otherwise. -/
def serverDeviceId (fields : Fields) : Option Bytes :=
  match fields.find? (text "ekCertPem") with
  | some pem => (pemToDer pem).map (deviceIdOf sha1 sha256)
  | none => (fields.find? (text "ekPublicKey") >>= Base64.decode).map (deviceIdOf sha1 sha256)

end Server

section Selection
variable (sha1 sha256 : Bytes → Bytes) (s : Sources)

/-- The certificate of the sources behind the Windows store: PCP_RSA_EKNVCERT, then AMD's endpoint. -/
def fallbackCertificate : Bytes :=
  if 32 < s.ekCertificate.length then s.ekCertificate
  else fetchAmdAiaEkCert sha256 s.httpGet (extractRsaModulusFromEkPub s.ekPublicKey)

/-- What the local id is derived from. -/
def localIdentity : Bytes :=
  if 32 < (readEkCertFromWindowsStore s.certStore).length then readEkCertFromWindowsStore s.certStore
  else s.ekPublicKey

/-- The certificate enrollment sends, when there is one. -/
def enrolledCertificate : Bytes :=
  if 32 < (readEkCertFromWindowsStore s.certStore).length then readEkCertFromWindowsStore s.certStore
  else fallbackCertificate sha256 s

/-- What the server derives its id from. -/
def serverIdentity : Bytes :=
  if enrolledCertificate sha256 s = [] then s.ekPublicKey else enrolledCertificate sha256 s

variable {sha1 sha256 s} {ek : EkEnrollData}

theorem derToPem_ne_nil (der : Bytes) : derToPem der ≠ [] := by
  have hheader : pemHeader ≠ [] := by decide
  simp [derToPem, hheader]

/-- The certificate goes into the body as PEM. -/
theorem gatherEkCertPem_eq (sha256 : Bytes → Bytes) (s : Sources) : gatherEkCertPem sha256 s =
    if enrolledCertificate sha256 s = [] then [] else derToPem (enrolledCertificate sha256 s) := by
  have hne : ∀ {der : Bytes}, 32 < der.length → der ≠ [] := fun hlt hnil => by simp [hnil] at hlt
  simp only [gatherEkCertPem, enrolledCertificate, fallbackCertificate]
  by_cases hstore : 32 < (readEkCertFromWindowsStore s.certStore).length
  · simp only [if_neg (not_le.mpr hstore), if_pos hstore, if_neg (hne hstore)]
  simp only [if_pos (not_lt.mp hstore), if_neg hstore]
  by_cases hpcp : 32 < s.ekCertificate.length
  · simp only [if_pos hpcp, if_neg (hne hpcp)]
  simp only [if_neg hpcp]
  by_cases hmodulus : extractRsaModulusFromEkPub s.ekPublicKey = []
  · simp [hmodulus, fetchAmdAiaEkCert]
  rw [if_pos hmodulus]
  by_cases hamd : fetchAmdAiaEkCert sha256 s.httpGet (extractRsaModulusFromEkPub s.ekPublicKey) = []
  · rw [if_neg (not_not.mpr hamd), if_pos hamd]
  · rw [if_pos hamd, if_neg hamd]

theorem deriveLocalDeviceId_eq (h : gatherEkEnrollData sha256 s = some ek) :
    deriveLocalDeviceId sha1 sha256 s = deviceIdOf sha1 sha256 (localIdentity s) := by
  obtain ⟨hopens, hpub, -⟩ := gatherEkEnrollData_eq_some sha256 h
  simp only [deriveLocalDeviceId, localIdentity, hopens, hpub, not_true_eq_false, if_false]
  split_ifs <;> rfl

private theorem field_keys : text "ekPublicKey" ≠ text "akPublicArea" ∧ text "ekPublicKey" ≠ text "platform" ∧
    text "ekPublicKey" ≠ text "ekCertPem" ∧ text "ekPublicKey" ≠ text "ekCertificateChain" ∧
    text "ekCertPem" ≠ text "akPublicArea" ∧ text "ekCertPem" ≠ text "platform" ∧
    text "ekCertPem" ≠ text "ekCertificateChain" := by decide +kernel

theorem buildEnrollFields_ekPublicKey (ek : EkEnrollData) (akPub : Bytes) :
    (buildEnrollFields ek akPub).find? (text "ekPublicKey") = some (base64Encode ek.ekPub) := by
  obtain ⟨h₁, h₂, h₃, h₄, -⟩ := field_keys
  simp only [buildEnrollFields, OrdMap.ofList, List.foldl_cons, List.foldl_nil]
  split_ifs <;> simp only [OrdMap.find?_insert, if_neg h₁, if_neg h₂, if_neg h₃, if_neg h₄, if_true]

theorem buildEnrollFields_ekCertPem (ek : EkEnrollData) (akPub : Bytes) :
    (buildEnrollFields ek akPub).find? (text "ekCertPem") = if ek.ekCertPem = [] then none else some ek.ekCertPem := by
  obtain ⟨-, -, h₃, -, h₅, h₆, h₇⟩ := field_keys
  simp only [buildEnrollFields, OrdMap.ofList, List.foldl_cons, List.foldl_nil, ite_not]
  split_ifs <;> simp only [OrdMap.find?_insert, OrdMap.find?_empty, if_neg h₃.symm, if_neg h₅, if_neg h₆, if_neg h₇,
    if_true]

theorem serverDeviceId_eq (h : gatherEkEnrollData sha256 s = some ek) (akPub : Bytes) :
    serverDeviceId sha1 sha256 (buildEnrollFields ek akPub) =
      some (deviceIdOf sha1 sha256 (serverIdentity sha256 s)) := by
  obtain ⟨-, -, rfl⟩ := gatherEkEnrollData_eq_some sha256 h
  rw [serverDeviceId, buildEnrollFields_ekCertPem, buildEnrollFields_ekPublicKey, gatherEkCertPem_eq, serverIdentity]
  by_cases hcert : enrolledCertificate sha256 s = []
  · simp only [if_pos hcert, if_true, base64Encode_eq, Option.bind_eq_bind, Option.bind_some, Base64.decode_encode,
      Option.map_some]
  · simp only [if_neg hcert, if_neg (derToPem_ne_nil _), pemToDer_derToPem, Option.map_some]

/-- Both chains pick the same bytes exactly when the Windows store decides or no other source has a
certificate. -/
theorem localIdentity_eq_iff (sha256 : Bytes → Bytes) (s : Sources) : localIdentity s = serverIdentity sha256 s ↔
    32 < (readEkCertFromWindowsStore s.certStore).length ∨ fallbackCertificate sha256 s = [] ∨
      fallbackCertificate sha256 s = s.ekPublicKey := by
  unfold serverIdentity
  by_cases hstore : 32 < (readEkCertFromWindowsStore s.certStore).length
  · have hlocal : localIdentity s = readEkCertFromWindowsStore s.certStore := if_pos hstore
    have henrolled : enrolledCertificate sha256 s = readEkCertFromWindowsStore s.certStore := if_pos hstore
    have hne : enrolledCertificate sha256 s ≠ [] := fun hnil => by simp [← henrolled, hnil] at hstore
    exact iff_of_true (by rw [hlocal, if_neg hne, henrolled]) (.inl hstore)
  · have hlocal : localIdentity s = s.ekPublicKey := if_neg hstore
    have henrolled : enrolledCertificate sha256 s = fallbackCertificate sha256 s := if_neg hstore
    rw [hlocal, or_iff_right hstore, ← henrolled]
    by_cases hnil : enrolledCertificate sha256 s = []
    · exact iff_of_true (if_pos hnil).symm (.inl hnil)
    · rw [if_neg hnil, or_iff_right hnil, eq_comm]

end Selection

section Agreement
variable {sha1 sha256 : Bytes → Bytes}

/-- Everything the two chains may hash. -/
def identities (sha256 : Bytes → Bytes) (s : Sources) : Set Bytes :=
  {readEkCertFromWindowsStore s.certStore, fallbackCertificate sha256 s, s.ekPublicKey}

private theorem localIdentity_mem (sha256 : Bytes → Bytes) (s : Sources) : localIdentity s ∈ identities sha256 s := by
  unfold localIdentity identities
  split_ifs <;> simp

private theorem serverIdentity_mem (sha256 : Bytes → Bytes) (s : Sources) :
    serverIdentity sha256 s ∈ identities sha256 s := by
  unfold serverIdentity enrolledCertificate identities
  split_ifs <;> simp

/-- The ids agree exactly on devices whose certificate is in the Windows store and on devices that
have none, whatever the digests, injective where they are used. -/
theorem deriveLocalDeviceId_eq_server_iff (hsha1 : ∀ data, 16 ≤ (sha1 data).length)
    (hsha256 : ∀ data, (sha256 data).length = 32) (s : Sources) (hinj256 : Set.InjOn sha256 (identities sha256 s))
    (hinj1 : Set.InjOn (fun fp => guidBytes (sha1 (kNamespace ++ fp))) (Set.image sha256 (identities sha256 s)))
    {ek : EkEnrollData} (h : gatherEkEnrollData sha256 s = some ek) (akPub : Bytes) :
    serverDeviceId sha1 sha256 (buildEnrollFields ek akPub) = some (deriveLocalDeviceId sha1 sha256 s) ↔
      32 < (readEkCertFromWindowsStore s.certStore).length ∨ fallbackCertificate sha256 s = [] ∨
        fallbackCertificate sha256 s = s.ekPublicKey := by
  rw [serverDeviceId_eq h, deriveLocalDeviceId_eq h, ← localIdentity_eq_iff, Option.some.injEq]
  constructor
  · intro hid
    have hserver := serverIdentity_mem sha256 s
    have hlocal := localIdentity_mem sha256 s
    have hkept := computeDeviceId_inj hsha1 (hsha256 _) (hsha256 _) hid
    exact (hinj256 hserver hlocal (hinj1 ⟨_, hserver, rfl⟩ ⟨_, hlocal, rfl⟩ hkept)).symm
  · intro hidentity
    rw [hidentity]

/-- A discrete TPM: a certificate of 33 bytes in NV, none in the Windows store. -/
def discreteTpm : Sources where
  certStore := []
  pcpOpens := true
  ekPublicKey := beBytes 29 0x525341311000000003000000020000000000000000000000010001c105
  ekCertificate := 0x30 :: 31 :: List.replicate 31 0
  httpGet := fun _ => (404, [])
  odcaIntermediates := some []
  intermediateStore := []

/-- SHA-256 of the certificate, of the public key and of no bytes. -/
def sampleSha256 (data : Bytes) : Bytes :=
  if data = discreteTpm.ekCertificate then
    beBytes 32 0x74266ab34cd392355118e51790be04479aff19d97801ed916946b232603afc98
  else if data = discreteTpm.ekPublicKey then
    beBytes 32 0x6c8810f2ee1c2ff024e16388c59558ee85072b67171536de8d77261efc5ea78f
  else beBytes 32 0xe3b0c44298fc1c149afbf4c8996fb92427ae41e4649b934ca495991b7852b855

/-- SHA-1 of the namespace in front of each of them. -/
def sampleSha1 (data : Bytes) : Bytes :=
  if data = kNamespace ++ sampleSha256 discreteTpm.ekCertificate then
    beBytes 20 0x3dfd67810dcf6451fe2aed5e8778212312680b60
  else if data = kNamespace ++ sampleSha256 discreteTpm.ekPublicKey then
    beBytes 20 0x3d2ab6478bb13b637893a70ab6ba77fbd480d699
  else beBytes 20 0xdd291ddec9f44638cbfb5ffbe1451d901b486080

theorem sampleSha1_length (data : Bytes) : (sampleSha1 data).length = 20 := by
  unfold sampleSha1
  split_ifs <;> rw [beBytes_length]

theorem sampleSha256_length (data : Bytes) : (sampleSha256 data).length = 32 := by
  unfold sampleSha256
  split_ifs <;> rw [beBytes_length]

theorem sample_identities : identities sampleSha256 discreteTpm =
    {data | data ∈ [[], discreteTpm.ekCertificate, discreteTpm.ekPublicKey]} := by
  have hstore : readEkCertFromWindowsStore discreteTpm.certStore = [] := rfl
  have hfallback : fallbackCertificate sampleSha256 discreteTpm = discreteTpm.ekCertificate := by decide
  ext data
  simp only [identities, hstore, hfallback, Set.mem_insert_iff, Set.mem_singleton_iff, Set.mem_ofPred_eq, List.mem_cons,
    List.not_mem_nil, or_false]

/-- The digests of what is hashed for the sample device are pairwise different. -/
private theorem sample_nodup :
    ([[], discreteTpm.ekCertificate, discreteTpm.ekPublicKey].map sampleSha256).Nodup ∧
      (([[], discreteTpm.ekCertificate, discreteTpm.ekPublicKey].map sampleSha256).map fun fp =>
        guidBytes (sampleSha1 (kNamespace ++ fp))).Nodup := by
  decide

theorem sampleSha256_injOn : Set.InjOn sampleSha256 (identities sampleSha256 discreteTpm) := by
  rw [sample_identities]
  intro data hdata data' hdata' h
  exact List.inj_on_of_nodup_map sample_nodup.1 hdata hdata' h

theorem sampleSha1_injOn : Set.InjOn (fun fp => guidBytes (sampleSha1 (kNamespace ++ fp)))
    (Set.image sampleSha256 (identities sampleSha256 discreteTpm)) := by
  rw [sample_identities]
  rintro _ ⟨data, hdata, rfl⟩ _ ⟨data', hdata', rfl⟩ h
  exact List.inj_on_of_nodup_map sample_nodup.2 (List.mem_map_of_mem hdata) (List.mem_map_of_mem hdata') h

/-- What enrollment gathers there. -/
def discreteTpmData : EkEnrollData := ⟨discreteTpm.ekPublicKey, derToPem discreteTpm.ekCertificate, []⟩

theorem gather_discreteTpm : gatherEkEnrollData sampleSha256 discreteTpm = some discreteTpmData := by
  decide +kernel

theorem deriveLocalDeviceId_discreteTpm :
    serverDeviceId sampleSha1 sampleSha256 (buildEnrollFields discreteTpmData [0, 1, 0]) =
        some (deriveLocalDeviceId sampleSha1 sampleSha256 discreteTpm) ↔
      32 < (readEkCertFromWindowsStore discreteTpm.certStore).length ∨
        fallbackCertificate sampleSha256 discreteTpm = [] ∨
          fallbackCertificate sampleSha256 discreteTpm = discreteTpm.ekPublicKey :=
  deriveLocalDeviceId_eq_server_iff (fun data => by rw [sampleSha1_length]; decide) sampleSha256_length discreteTpm
    sampleSha256_injOn sampleSha1_injOn gather_discreteTpm [0, 1, 0]

/-- The server knows the sample device by its certificate, the evidence by its public key. -/
theorem deriveLocalDeviceId_ignores_nv_certificate :
    ¬ ∀ sha1 sha256 : Bytes → Bytes, (∀ data, (sha1 data).length = 20) → (∀ data, (sha256 data).length = 32) →
      ∀ s : Sources, Set.InjOn sha256 (identities sha256 s) →
        Set.InjOn (fun fp => guidBytes (sha1 (kNamespace ++ fp))) (Set.image sha256 (identities sha256 s)) →
          ∀ ek, gatherEkEnrollData sha256 s = some ek → ∀ akPub,
            serverDeviceId sha1 sha256 (buildEnrollFields ek akPub) = some (deriveLocalDeviceId sha1 sha256 s) := by
  intro h
  have hid := h sampleSha1 sampleSha256 sampleSha1_length sampleSha256_length discreteTpm sampleSha256_injOn
    sampleSha1_injOn _ gather_discreteTpm [0, 1, 0]
  rw [serverDeviceId_eq gather_discreteTpm] at hid
  exact absurd hid (by decide)

end Agreement
end RootHerald.Windows
