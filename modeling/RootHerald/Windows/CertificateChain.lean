import RootHerald.Lib.Folds
import RootHerald.Windows.EmittedJson

/-! The ekCertificateChain of an enroll body against the wire format: deduplicated and capped at 8. -/
namespace RootHerald.Windows
open Lib Json

/-- The certificates behind 16 NV handles. What ReadNvCertificate answers for a handle is a parameter. -/
def readIntelOdcaIntermediates (readNvCertificate : Nat → Option Bytes) : List Bytes :=
  (List.range 16).filterMap fun i => (readNvCertificate (0x01C00100 + i)).filter (· ≠ [])

/-- What was read of both sources. Without a TBS context neither is asked. -/
def certificatesRead (s : Sources) : List Bytes :=
  match s.odcaIntermediates with
  | none => []
  | some odca => odca ++ s.intermediateStore

/-- The wire format on the entries of a chain, for the certificates it was gathered from. -/
structure ChainContract (read chain : List Bytes) : Prop where
  capped : chain.length ≤ 8
  distinct : chain.Nodup
  fromRead : ∀ cert ∈ chain, cert ∈ read
  complete : read.dedup.length ≤ 8 → ∀ cert ∈ read, cert ∈ chain

section Merge
variable {sha256 : Bytes → Bytes} {s : Sources}

/-- A digest that tells apart the certificates it is used on. -/
structure Fingerprints (sha256 : Bytes → Bytes) (certs : List Bytes) : Prop where
  succeeds : ∀ cert ∈ certs, sha256 cert ≠ []
  injective : ∀ cert ∈ certs, ∀ cert' ∈ certs, sha256 cert = sha256 cert' → cert = cert'

private theorem mergeIntermediate_eq {certs kept : List Bytes} (h : Fingerprints sha256 certs)
    (hkept : ∀ cert ∈ kept, cert ∈ certs) {cert : Bytes} (hcert : cert ∈ certs) :
    mergeIntermediate sha256 (kept, kept.map sha256) cert =
      (addNew kMaxIntermediates kept cert, (addNew kMaxIntermediates kept cert).map sha256) := by
  have hseen : sha256 cert ∈ kept.map sha256 ↔ cert ∈ kept := by
    refine ⟨fun hmem => ?_, List.mem_map_of_mem⟩
    obtain ⟨cert', hmem, heq⟩ := List.mem_map.mp hmem
    exact h.injective cert' (hkept cert' hmem) cert hcert heq ▸ hmem
  simp only [mergeIntermediate, addNew, hseen, if_pos (h.succeeds cert hcert)]
  by_cases hcap : kMaxIntermediates ≤ kept.length
  · rw [if_pos hcap, if_pos (Or.inl hcap)]
  by_cases hmem : cert ∈ kept
  · rw [if_neg hcap, if_pos hmem, if_pos (Or.inr hmem)]
  · rw [if_neg hcap, if_neg hmem, if_neg (not_or.mpr ⟨hcap, hmem⟩), List.map_append]
    rfl

/-- With such a digest the fingerprints seen are those of the certificates kept. -/
private theorem foldl_mergeIntermediate {certs kept winStore : List Bytes} (h : Fingerprints sha256 certs)
    (hkept : ∀ cert ∈ kept, cert ∈ certs) (hstore : ∀ cert ∈ winStore, cert ∈ certs) :
    (winStore.foldl (mergeIntermediate sha256) (kept, kept.map sha256)).1 =
      winStore.foldl (addNew kMaxIntermediates) kept := by
  induction winStore generalizing kept with
  | nil => rfl
  | cons cert winStore ih =>
    obtain ⟨hcert, hstore⟩ := List.forall_mem_cons.mp hstore
    rw [List.foldl_cons, List.foldl_cons, mergeIntermediate_eq h hkept hcert]
    refine ih (fun cert' hmem => ?_) hstore
    rcases mem_addNew hmem with hmem | rfl
    · exact hkept cert' hmem
    · exact hcert

theorem mergeIntermediates_eq {odca winStore : List Bytes} (h : Fingerprints sha256 (odca ++ winStore)) :
    mergeIntermediates sha256 odca winStore =
      (winStore.foldl (addNew kMaxIntermediates) odca).take kMaxIntermediates := by
  have hseen : (odca.map sha256).filter (· ≠ []) = odca.map sha256 := by
    refine List.filter_eq_self.mpr fun fp hfp => ?_
    obtain ⟨cert, hcert, rfl⟩ := List.mem_map.mp hfp
    exact decide_eq_true (h.succeeds cert (List.mem_append_left _ hcert))
  rw [mergeIntermediates, hseen, foldl_mergeIntermediate h (fun _ => List.mem_append_left _)
    fun _ => List.mem_append_right _]

/-- The bound is checked before each certificate of the Windows store, the first eight of NV are taken as
they are. -/
theorem chainContract_foldl_iff (odca winStore : List Bytes) :
    ChainContract (odca ++ winStore) ((winStore.foldl (addNew kMaxIntermediates) odca).take kMaxIntermediates) ↔
      (odca.take kMaxIntermediates).Nodup := by
  have hprefix : odca.take kMaxIntermediates <+:
      (winStore.foldl (addNew kMaxIntermediates) odca).take kMaxIntermediates :=
    List.prefix_take_iff.mpr ⟨(List.take_prefix _ _).trans (prefix_foldl_addNew _ _ _), List.length_take_le _ _⟩
  refine ⟨fun h => h.distinct.sublist hprefix.sublist, fun h => ?_⟩
  have hcapped := List.length_take_le kMaxIntermediates (winStore.foldl (addNew kMaxIntermediates) odca)
  have hread : ∀ cert ∈ (winStore.foldl (addNew kMaxIntermediates) odca).take kMaxIntermediates,
      cert ∈ odca ++ winStore := fun cert hcert =>
    List.mem_append.mpr (mem_foldl_addNew (List.mem_of_mem_take hcert))
  have hdistinct : ((winStore.foldl (addNew kMaxIntermediates) odca).take kMaxIntermediates).Nodup := by
    by_cases hroom : odca.length ≤ kMaxIntermediates
    · rw [List.take_of_length_le hroom] at h
      exact (foldl_addNew_nodup h).sublist (List.take_sublist _ _)
    · have hlen : (odca.take kMaxIntermediates).length = kMaxIntermediates := List.length_take_of_le (by omega)
      rwa [← hprefix.eq_of_length_le (hcapped.trans hlen.ge)]
  refine ⟨hcapped, hdistinct, hread, fun hfew cert hcert => ?_⟩
  by_cases hfull : kMaxIntermediates ≤ (winStore.foldl (addNew kMaxIntermediates) odca).length
  · exact mem_of_nodup_of_length hdistinct hread (by rw [List.length_take_of_le hfull]; exact hfew) hcert
  · rw [List.take_of_length_le (by omega)]
    rcases List.mem_append.mp hcert with hodca | hstore
    · exact (prefix_foldl_addNew kMaxIntermediates odca winStore).subset hodca
    · exact foldl_addNew_complete (by omega) hstore

theorem chainContract_gathered_iff (h : Fingerprints sha256 (certificatesRead s)) :
    ChainContract (certificatesRead s) (gatherIntermediates sha256 s) ↔
      ((s.odcaIntermediates.getD []).take kMaxIntermediates).Nodup := by
  cases hodca : s.odcaIntermediates with
  | none =>
    simp only [certificatesRead, gatherIntermediates, hodca]
    exact iff_of_true ⟨Nat.zero_le 8, .nil, by simp, by simp⟩ .nil
  | some odca =>
    simp only [certificatesRead, hodca] at h
    simp only [certificatesRead, gatherIntermediates, hodca, mergeIntermediates_eq h]
    exact chainContract_foldl_iff odca s.intermediateStore

end Merge

section Emission
variable {ek : EkEnrollData} {akPub : Bytes}

/-- The certificates of a decoded body, none when the member is left out. -/
def bodyChain : Json → Option (List Bytes)
  | .object members =>
    match findEntry (text "ekCertificateChain") members with
    | none => some []
    | some (.array certs) => certs.mapM fun
      | .string pem => pemToDer pem
      | _ => none
    | some _ => none
  | _ => none

/-- What the receiver of an enroll body finds under ekCertificateChain. -/
def emittedChain (json : Bytes) : Option (List Bytes) := parse json >>= bodyChain

/-- A key that base 64 writes as a literal is read as that literal. -/
def base64Read (value : Bytes) : Json :=
  if value = text "true" then .bool true else if value = text "null" then .null else .string value

theorem jsonValue_base64Encode_exact (depth : Nat) (data : Bytes) :
    Exact (readValue (depth + 1)) (jsonValue (base64Encode data)) (base64Read (base64Encode data)) True := by
  unfold base64Read
  split_ifs with htrue hnull
  · rw [htrue]
    exact jsonValue_boolText_exact depth true
  · rw [hnull]
    exact jsonValue_null_exact depth
  · refine (jsonValue_exact depth (base64Encode data)).congr (iff_true_intro ?_)
    refine (plain_base64Encode data).mpr fun hmem => ?_
    simp only [literalBytes, List.mem_cons, List.not_mem_nil, or_false] at hmem
    rcases hmem with rfl | rfl
    · exact htrue (by decide)
    · exact hnull (by decide)

/-- An enroll body as it decodes, whatever its keys. -/
def enrollRead (ek : EkEnrollData) (key value : Bytes) : Json :=
  if key = text "ekCertificateChain" then .array (ek.intermediates.map fun cert => .string (derToPem cert))
  else if key = text "ekPublicKey" ∨ key = text "akPublicArea" then base64Read value
  else .string value

theorem parse_enroll (hpem : Plain ek.ekCertPem) :
    parse (jsonBuild (buildEnrollFields ek akPub)) = some (assembled (enrollRead ek) (buildEnrollFields ek akPub)) := by
  have hfield : (text "platform", text "windows") ∈ (buildEnrollFields ek akPub).entries :=
    mem_buildEnrollFields.mpr (.inl (.inl (by simp)))
  have hwindows : Plain (text "windows") := by decide
  refine (parse_jsonBuild_iff (n := 3) (by decide) hfield fun depth =>
    jsonBuild_exact (P := fun _ => True) buildEnrollFields_names fun e he => ?_).mpr fun _ _ => trivial
  simp only [mem_buildEnrollFields, List.mem_cons, List.not_mem_nil, or_false] at he
  rcases he with ((rfl | rfl | rfl) | ⟨-, rfl⟩) | ⟨-, rfl⟩
  · simpa [enrollRead] using jsonValue_base64Encode_exact (depth + 1) ek.ekPub
  · simpa [enrollRead] using jsonValue_base64Encode_exact (depth + 1) akPub
  · simpa [enrollRead, hwindows] using jsonValue_exact (depth + 1) (text "windows")
  · simpa [enrollRead, hpem] using jsonValue_exact (depth + 1) ek.ekCertPem
  · simpa [enrollRead] using jsonValue_pemArray_exact depth ek.intermediates

private theorem chain_keys : text "ekCertificateChain" ≠ text "ekPublicKey" ∧
    text "ekCertificateChain" ≠ text "akPublicArea" ∧ text "ekCertificateChain" ≠ text "platform" ∧
    text "ekCertificateChain" ≠ text "ekCertPem" := by decide

theorem buildEnrollFields_ekCertificateChain (ek : EkEnrollData) (akPub : Bytes) :
    (buildEnrollFields ek akPub).find? (text "ekCertificateChain") =
      if ek.intermediates = [] then none else some (pemArray ek.intermediates) := by
  obtain ⟨h₁, h₂, h₃, h₄⟩ := chain_keys
  simp only [buildEnrollFields, OrdMap.ofList, List.foldl_cons, List.foldl_nil, ite_not]
  split_ifs <;> simp only [OrdMap.find?_insert, OrdMap.find?_empty, if_neg h₁, if_neg h₂, if_neg h₃, if_neg h₄, if_true]

private theorem mapM_pem (certs : List Bytes) :
    (certs.map fun cert => Json.string (derToPem cert)).mapM (fun
      | .string pem => pemToDer pem
      | _ => none) = some certs := by
  induction certs with
  | nil => rfl
  | cons cert certs ih =>
    rw [List.map_cons, List.mapM_cons, ih]
    simp [pemToDer_derToPem]

/-- The receiver finds the certificates gathered. -/
theorem emittedChain_enroll (hpem : Plain ek.ekCertPem) :
    emittedChain (jsonBuild (buildEnrollFields ek akPub)) = some ek.intermediates := by
  have hfind := buildEnrollFields_ekCertificateChain ek akPub
  rw [OrdMap.find?] at hfind
  simp only [emittedChain, parse_enroll hpem, assembled, Option.bind_eq_bind, Option.bind_some, bodyChain, findEntry_map,
    hfind]
  by_cases hnil : ek.intermediates = []
  · rw [if_pos hnil, hnil]
    rfl
  · rw [if_neg hnil, Option.map_some, enrollRead, if_pos rfl]
    exact mapM_pem ek.intermediates

theorem emittedChain_enrollBegin (sys : System) (outEnrollJson : Bool) (env : CallEnv) (inFlight : InFlight) (w : World) :
    ∀ json ∈ ((rootHeraldEnrollBegin sys outEnrollJson env inFlight).run w).1.json,
      emittedChain json = some (gatherIntermediates sys.sha256 env.sources) := by
  intro json hjson
  obtain ⟨ek, p, hgather, -, -, rfl⟩ := rootHeraldEnrollBegin_text sys outEnrollJson env inFlight w trivial json hjson
  obtain ⟨-, -, rfl⟩ := gatherEkEnrollData_eq_some sys.sha256 hgather
  exact emittedChain_enroll (plain_gatherEkCertPem sys.sha256 env.sources)

end Emission

section Contract

/-- Whatever the NV handles and the Windows store hold, the chain a receiver finds is as the wire format
has it exactly if the first eight certificates behind the handles differ. -/
theorem emitted_chain_iff (sys : System) (w : World) (outEnrollJson : Bool) (env : CallEnv) (inFlight : InFlight)
    (nv : Option (Nat → Option Bytes)) (hnv : env.sources.odcaIntermediates = nv.map readIntelOdcaIntermediates)
    (hsha256 : Fingerprints sys.sha256 (certificatesRead env.sources)) :
    ∀ json ∈ ((rootHeraldEnrollBegin sys outEnrollJson env inFlight).run w).1.json,
      ∃ chain, emittedChain json = some chain ∧ (ChainContract (certificatesRead env.sources) chain ↔
        ∀ readNvCertificate ∈ nv, ((readIntelOdcaIntermediates readNvCertificate).take 8).Nodup) := by
  intro json hjson
  refine ⟨_, emittedChain_enrollBegin sys outEnrollJson env inFlight w json hjson, ?_⟩
  rw [chainContract_gathered_iff hsha256, hnv]
  cases nv with
  | none => exact iff_of_true .nil fun _ h => by cases h
  | some readNvCertificate => exact ⟨fun h _ heq => Option.some.inj heq ▸ h, fun h => h _ rfl⟩

/-- Two certificates, and their SHA-256. -/
def certA : Bytes := [0x30, 3, 2, 1, 1]
def certB : Bytes := [0x30, 3, 2, 1, 2]

def chainSystem : System := { sampleSystem with
  sha256 := fun data =>
    if data = certA then beBytes 32 0x1b65f68a522c858715f5dd951cd0402dc16691778814bf0759822b7a257421d0
    else if data = certB then beBytes 32 0x714f7108ae1387dc72ec6b79a0c0f8e596205dbc8159d2c538493ba664ed26a9
    else beBytes 32 0xe3b0c44298fc1c149afbf4c8996fb92427ae41e4649b934ca495991b7852b855 }

/-- A device whose NV handles and Windows store hold these. -/
def chainEnv (nv : Nat → Option Bytes) (winStore : List Bytes) : CallEnv := { sampleEnv with
  sources := { sampleEnv.sources with
    odcaIntermediates := some (readIntelOdcaIntermediates nv), intermediateStore := winStore } }

def chainWorld : World where
  tpm := { openCredential := fun _ _ _ _ => none }
  outcomes := [answered, createdAt 0x80000001 1, createdAt 0x80000002 2]

/-- One certificate behind one handle, and behind two. -/
def oneHandle (handle : Nat) : Option Bytes := if handle = 0x01C00100 then some certA else none
def twoHandles (handle : Nat) : Option Bytes := if handle ≤ 0x01C00101 then some certA else none

theorem chainSystem_fingerprints {certs : List Bytes} (h : ∀ cert ∈ certs, cert = certA ∨ cert = certB) :
    Fingerprints chainSystem.sha256 certs := by
  have hne : chainSystem.sha256 certA ≠ [] ∧ chainSystem.sha256 certB ≠ [] ∧
      chainSystem.sha256 certA ≠ chainSystem.sha256 certB := by decide
  obtain ⟨hA, hB, hAB⟩ := hne
  refine ⟨fun cert hcert => ?_, fun cert hcert cert' hcert' heq => ?_⟩
  · rcases h cert hcert with rfl | rfl
    · exact hA
    · exact hB
  · rcases h cert hcert with rfl | rfl <;> rcases h cert' hcert' with rfl | rfl
    · rfl
    · exact absurd heq hAB
    · exact absurd heq.symm hAB
    · rfl

/-- The Windows store repeats the certificate of the handle and adds one: both are sent once. -/
theorem emitted_chain_merged :
    ∃ json, ((rootHeraldEnrollBegin chainSystem true (chainEnv oneHandle [certA, certB]) none).run chainWorld).1.json =
        some json ∧ emittedChain json = some [certA, certB] ∧
      ChainContract (certificatesRead (chainEnv oneHandle [certA, certB]).sources) [certA, certB] := by
  obtain ⟨json, hjson⟩ := Option.isSome_iff_exists.mp (by decide :
    ((rootHeraldEnrollBegin chainSystem true (chainEnv oneHandle [certA, certB]) none).run chainWorld).1.json.isSome =
      true)
  have hgathered : gatherIntermediates chainSystem.sha256 (chainEnv oneHandle [certA, certB]).sources =
      [certA, certB] := by decide
  have hsent := emittedChain_enrollBegin chainSystem true (chainEnv oneHandle [certA, certB]) none chainWorld json hjson
  obtain ⟨chain, hchain, hiff⟩ := emitted_chain_iff chainSystem chainWorld true (chainEnv oneHandle [certA, certB]) none
    (some oneHandle) rfl (chainSystem_fingerprints (by decide)) json hjson
  rw [hsent, hgathered] at hchain
  obtain rfl := Option.some.inj hchain
  exact ⟨json, hjson, hsent.trans (congrArg some hgathered), hiff.mpr (by decide)⟩

/-- Behind two handles the same certificate is sent twice. -/
theorem emitted_chain_repeats :
    ¬ ∀ (sys : System) (w : World) (outEnrollJson : Bool) (env : CallEnv) (inFlight : InFlight)
      (nv : Option (Nat → Option Bytes)), env.sources.odcaIntermediates = nv.map readIntelOdcaIntermediates →
      Fingerprints sys.sha256 (certificatesRead env.sources) →
      ∀ json ∈ ((rootHeraldEnrollBegin sys outEnrollJson env inFlight).run w).1.json,
        ∃ chain, emittedChain json = some chain ∧ ChainContract (certificatesRead env.sources) chain := by
  intro h
  obtain ⟨json, hjson⟩ := Option.isSome_iff_exists.mp (by decide :
    ((rootHeraldEnrollBegin chainSystem true (chainEnv twoHandles []) none).run chainWorld).1.json.isSome = true)
  obtain ⟨chain, hchain, hcontract⟩ := h chainSystem chainWorld true (chainEnv twoHandles []) none (some twoHandles) rfl
    (chainSystem_fingerprints (by decide)) json hjson
  rw [emittedChain_enrollBegin chainSystem true (chainEnv twoHandles []) none chainWorld json hjson] at hchain
  obtain rfl := Option.some.inj hchain
  exact absurd hcontract.distinct (by decide)

end Contract
end RootHerald.Windows
