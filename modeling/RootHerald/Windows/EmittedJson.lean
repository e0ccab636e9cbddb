import RootHerald.Lib.Triple
import RootHerald.Windows.EmittedBodies
import RootHerald.Windows.PersistentKey

/-! The texts the driver calls of the Windows client hand out, and when their receiver reads what
was assembled. -/
namespace RootHerald.Windows
open Lib Json Boot

section Begin

/-- A public area starts with its size. -/
theorem createdPublicArea_length {resp : Bytes} (h : createdPublicArea resp ≠ []) :
    (createdPublicArea resp).length = 2 + beNat ((createdPublicArea resp).take 2) := by
  unfold createdPublicArea at h ⊢
  dsimp only at h ⊢
  split_ifs at h ⊢ with hlen hparam hpub
  · have hget : ∀ j, resp.getD (18 + j) 0 = (resp.drop 18).getD j 0 := by
      intro j
      simp [List.getD_eq_getElem?_getD, List.getElem?_drop]
    have hsize : readU16 resp 18 = beNat [(resp.drop 18).getD 0 0, (resp.drop 18).getD 1 0] := by
      rw [← hget, ← hget]
      rfl
    have hdrop : (resp.drop 18).length = resp.length - 18 := List.length_drop
    match harea : resp.drop 18 with
    | [] | [_] =>
      rw [harea] at hdrop
      simp only [List.length_nil, List.length_cons] at hdrop
      omega
    | a :: b :: t =>
      rw [harea] at hsize hdrop
      rw [List.take_take, min_eq_left (by omega), List.length_take, hdrop]
      change _ = 2 + beNat [a, b]
      rw [show beNat [a, b] = readU16 resp 18 from hsize.symm]
      omega
  all_goals exact absurd rfl h

private theorem nil_not_literal : ([] : Bytes) ∉ literalBytes := by decide

theorem createdPublicArea_not_literal (resp : Bytes) : createdPublicArea resp ∉ literalBytes := by
  intro hmem
  have hne : createdPublicArea resp ≠ [] := fun h => absurd (h ▸ hmem) (by decide)
  have hlen := createdPublicArea_length hne
  exact (by decide : ∀ area ∈ literalBytes, area.length ≠ 2 + beNat (area.take 2)) _ hmem hlen

theorem createAndLoadAk_not_literal (tpm : TpmCommands) :
    Triple (fun _ => True) (createAndLoadAk tpm) fun r _ => r.2 ∉ literalBytes :=
  .bind (.any _) fun resp => .ite (fun _ => .pure fun _ _ => nil_not_literal) fun _ =>
    .ite (fun _ => .pure fun _ _ => nil_not_literal) fun _ => .pure fun _ _ => createdPublicArea_not_literal resp

theorem createAk_not_literal (p : TbsKeyProvider) :
    Triple (fun _ => True) p.createAk fun r _ => r.2.akPubArea ∉ literalBytes := by
  refine .bind (.any _) fun p' => .bind (.any _) fun ekHandle => .ite (fun _ => .pure fun _ _ => nil_not_literal) fun _ => ?_
  refine .bind (createAndLoadAk_not_literal p'.tpm) fun (akHandle, akPubArea) => .assume (fun _ h => h) fun harea =>
    .ite (fun _ => ?_) fun _ => .pure fun _ _ => harea
  exact .bind (Q := fun p _ => p.akPubArea ∉ literalBytes)
    (.bind (.any _) fun _ => .bind (.any _) fun _ => .pure fun _ _ => harea) fun _ => .pure fun _ h => h

/-- A text handed out is the body of what was gathered and of the AK created. -/
def BeginText (sys : System) (env : CallEnv) (r : EnrollStep) : Prop :=
  ∀ json ∈ r.json, ∃ ek p, gatherEkEnrollData sys.sha256 env.sources = some ek ∧ r.inFlight = some p ∧
    p.akPubArea ∉ literalBytes ∧ json = jsonBuild (buildEnrollFields ek p.akPubArea)

theorem rootHeraldEnrollBegin_text (sys : System) (outEnrollJson : Bool) (env : CallEnv) (inFlight : InFlight) :
    Triple (fun _ => True) (rootHeraldEnrollBegin sys outEnrollJson env inFlight) fun r _ => BeginText sys env r := by
  have hnone : ∀ {status : RootHeraldResult}, Triple (fun _ => True) (Pure.pure { status, inFlight } : Tbs EnrollStep)
      fun r _ => BeginText sys env r := .pure fun _ _ _ h => by cases h
  unfold rootHeraldEnrollBegin
  refine .ite (fun _ => hnone) fun _ => .ite (fun _ => hnone) fun _ => ?_
  cases hgather : gatherEkEnrollData sys.sha256 env.sources with
  | none => exact hnone
  | some ek =>
    refine .bind (.any _) fun (opened, p) => .ite (fun _ => .bind (.any _) fun _ => hnone) fun _ => ?_
    refine .bind (createAk_not_literal p) fun (created, p) => .assume (fun _ h => h) fun harea => ?_
    refine .ite (fun _ => .bind (.any _) fun _ => hnone) fun _ => ?_
    refine .ite (fun _ => .bind (.any _) fun _ => .bind (.any _) fun _ => hnone) fun _ => ?_
    refine .ite (fun _ => .bind (.any _) fun _ => .bind (.any _) fun _ => hnone) fun _ => ?_
    refine .bind (.any _) fun _ => .pure fun _ _ json hjson => ?_
    obtain rfl := Option.some.inj hjson
    exact ⟨ek, p, hgather, rfl, harea, rfl⟩

end Begin

section Complete

/-- What ActivateCredential releases for a challenge. -/
def releasedSecret (sys : System) (challenge : Bytes) (p : TbsKeyProvider) (w : World) : Bytes :=
  ((p.activateCredential (sys.base64Decode (jsonGet challenge (text "credentialBlob")))
    (sys.base64Decode (jsonGet challenge (text "encryptedSecret")))).run w).1

/-- The text EnrollComplete hands out. -/
def completedText (sys : System) (challenge : Bytes) (outActivateJson allocated : Bool) (p : TbsKeyProvider)
    (w : World) : Option Bytes :=
  ((rootHeraldEnrollComplete sys (some challenge) outActivateJson allocated (some p)).run w).1.json

theorem rootHeraldEnrollComplete_text (sys : System) (challenge : Bytes) (outActivateJson allocated : Bool)
    (p : TbsKeyProvider) (w : World) : Triple (fun w' => w' = w)
      (rootHeraldEnrollComplete sys (some challenge) outActivateJson allocated (some p)) fun r _ =>
        ∀ json ∈ r.json, json =
          jsonBuild (activateFields (jsonGet challenge (text "deviceId")) (releasedSecret sys challenge p w)) := by
  refine .ite (fun _ => .pure fun _ _ _ h => by cases h) fun _ => .ite (fun _ => .pure fun _ _ _ h => by cases h) fun _ => ?_
  refine .bind (Q := fun secret _ => secret = releasedSecret sys challenge p w) (fun w' h => by rw [h]; rfl) fun secret =>
    .assume (fun _ h => h) fun hsecret => ?_
  refine .ite (fun _ => .bind (.any _) fun _ => .bind (.any _) fun _ => .pure fun _ _ _ h => by cases h) fun _ => ?_
  refine .bind (.any _) fun (persisted, p) => .ite (fun _ => .bind (.any _) fun _ => .pure fun _ _ _ h => by cases h)
    fun _ => ?_
  refine .bind (.any _) fun _ => .ite (fun _ => .pure fun _ _ _ h => by cases h) fun _ => .pure fun _ _ json hjson => ?_
  obtain rfl := Option.some.inj hjson
  rw [hsecret]

end Complete

section Collect
variable (sys : System) (env : CollectEnv) (nonceB64 : Bytes)

/-- Where each part of the evidence comes from. -/
structure CollectedFrom (ev : Evidence) : Prop where
  pcrs : readPcrs env.pcrRead evidencePcrs = some ev.pcrs
  nonce : ev.nonce = sys.base64Decode nonceB64
  quote : env.quoteOver ev.nonce = some (ev.quoted, ev.signature)
  eventLog : ev.eventLog = env.eventLog
  secureBoot : collectSecureBoot sys env.eventLog = .ok ev.secureBoot
  ekCertDer : ev.ekCertDer = readEkCertFromWindowsStore env.sources.certStore
  ekChain : ev.ekChain = env.sources.odcaIntermediates.getD []
  deviceId : ev.deviceId =
    if env.deviceId = [] then deriveLocalDeviceId sys.sha1 sys.sha256 env.sources else env.deviceId

theorem collectInContext_collected {collected : Collected}
    (h : collectInContext sys env (sys.base64Decode nonceB64) = .ok collected) (hok : collected.status = .ok) :
    ∃ ev, CollectedFrom sys env nonceB64 ev ∧ collected.fields = evidenceFields ev := by
  unfold collectInContext at h
  by_cases hnonce : sys.base64Decode nonceB64 = []
  · rw [if_pos hnonce] at h
    cases h
    cases hok
  rw [if_neg hnonce] at h
  cases hpcrs : readPcrs env.pcrRead evidencePcrs with
  | none =>
    rw [hpcrs] at h
    cases h
    cases hok
  | some pcrs =>
    rw [hpcrs] at h
    cases hquote : env.quoteOver (sys.base64Decode nonceB64) with
    | none =>
      simp only [hquote] at h
      cases h
      cases hok
    | some q =>
      simp only [hquote] at h
      obtain ⟨secureBoot, hsb, h⟩ := bind_eq_ok h
      obtain rfl := Except.ok.inj h
      exact ⟨_, ⟨hpcrs, rfl, hquote, rfl, hsb, rfl, rfl, rfl⟩, rfl⟩

private theorem collectEvidenceFields_collected :
    Triple (fun _ => True) (collectEvidenceFields sys env nonceB64) fun r _ => ∀ collected, r = .ok collected →
      collected.status = .ok → ∃ ev, CollectedFrom sys env nonceB64 ev ∧ collected.fields = evidenceFields ev := by
  refine .bind (.any _) fun provider => ?_
  cases provider with
  | none =>
    exact .pure fun _ _ _ h hok => by
      cases h
      cases hok
  | some provider =>
    refine .bind (.any _) fun (opened, tpmCmd) => .bind (.any _) fun _ => .bind (.any _) fun _ => .pure fun _ _ => ?_
    intro collected h hok
    split_ifs at h
    · exact collectInContext_collected sys env nonceB64 h hok
    · cases h
      cases hok

/-- A text handed out by CollectEvidence is the body of what was collected. -/
theorem rootHeraldCollectEvidence_text (outEvidenceJson : Bool) :
    Triple (fun _ => True) (rootHeraldCollectEvidence sys (some nonceB64) outEvidenceJson env) fun r _ =>
      ∀ status json, r = .ok (status, some json) →
        ∃ ev, CollectedFrom sys env nonceB64 ev ∧ json = jsonBuild (evidenceFields ev) := by
  refine .ite (fun _ => .pure fun _ _ _ _ h => by cases h) fun _ => ?_
  refine .bind (collectEvidenceFields_collected sys env nonceB64) fun r => ?_
  cases r with
  | error fault => exact .pure fun _ _ _ _ h => by cases h
  | ok collected =>
    refine .ite (fun _ => .pure fun _ _ _ _ h => by cases h) fun hok => .ite (fun _ => .pure fun _ _ _ _ h => by cases h)
      fun _ => .pure fun _ hcollected _ _ h => ?_
    obtain ⟨ev, hev, hfields⟩ := hcollected collected rfl (not_not.mp hok)
    cases h
    exact ⟨ev, hev, by rw [hfields]⟩

/-- The verdict of a collection is plain when the names it may quote are. -/
theorem CollectedFrom.verdict {sys : System} {env : CollectEnv} {nonceB64 : Bytes} {ev : Evidence}
    (h : CollectedFrom sys env nonceB64 ev) (hnames : ∀ report ∈ ev.secureBoot, PlainNames report.1) :
    ∀ report ∈ ev.secureBoot, Plain report.1.verdict := by
  intro report hreport
  have hsb := h.secureBoot
  unfold collectSecureBoot at hsb
  by_cases hlog : env.eventLog = []
  · rw [if_pos hlog] at hsb
    rw [← Except.ok.inj hsb] at hreport
    cases hreport
  · rw [if_neg hlog] at hsb
    obtain ⟨chainReport, hvalidate, hsb⟩ := bind_eq_ok hsb
    obtain ⟨eventAnalysis, -, hsb⟩ := bind_eq_ok hsb
    have hsome := Except.ok.inj hsb
    rw [← hsome] at hnames hreport
    obtain rfl := Option.some.inj hreport
    obtain ⟨-, rfl⟩ := (validateSecureBootChain_eq_ok _).mp hvalidate
    obtain ⟨-, ⟨herrors, hwarnings⟩, -⟩ := collect_fields
      { secureBootEnabled := lastSetting (decodedRecords env.eventLog) = some true }
      (keyLists sys.parseDerCertificate (decodedRecords env.eventLog))
    have hplain := hnames _ (Option.mem_some_self _)
    rw [conclude] at hplain ⊢
    exact judgeChain_verdict_plain herrors hwarnings hplain

end Collect

section Emitted

theorem plain_gatherEkCertPem (sha256 : Bytes → Bytes) (s : Sources) : Plain (gatherEkCertPem sha256 s) := by
  unfold gatherEkCertPem
  dsimp only
  split_ifs <;> first | exact plain_derToPem _ | decide

/-- The gathered certificate is PEM, so of the EK data only the public key may be misread. -/
theorem parse_enroll_iff {sha256 : Bytes → Bytes} {s : Sources} {ek : EkEnrollData} {akPub : Bytes}
    (h : gatherEkEnrollData sha256 s = some ek) (hak : akPub ∉ literalBytes) :
    parse (jsonBuild (buildEnrollFields ek akPub)) = some (enrollBody ek akPub) ↔ ek.ekPub ∉ literalBytes := by
  obtain ⟨-, -, hek⟩ := gatherEkEnrollData_eq_some sha256 h
  have hpem : Plain ek.ekCertPem := by
    rw [hek]
    exact plain_gatherEkCertPem sha256 s
  have hfield : (text "platform", text "windows") ∈ (buildEnrollFields ek akPub).entries :=
    mem_buildEnrollFields.mpr (.inl (.inl (by simp)))
  rw [parse_jsonBuild_iff (by decide) hfield fun depth => enrollBody_exact depth ek akPub]
  exact and_iff_left ⟨hak, hpem⟩

theorem parse_activate_iff (deviceId secret : Bytes) :
    parse (jsonBuild (activateFields deviceId secret)) = some (activateBody deviceId secret) ↔
      Plain deviceId ∧ secret ∉ literalBytes :=
  parse_jsonBuild_iff (by decide) (mem_activateFields.mpr (.inl rfl)) fun depth => activateBody_exact depth deviceId secret

theorem parse_evidence_iff {sys : System} {env : CollectEnv} {nonceB64 : Bytes} {ev : Evidence}
    (h : CollectedFrom sys env nonceB64 ev) :
    parse (jsonBuild (evidenceFields ev)) = some (evidenceBody ev) ↔ Readable ev := by
  have hfield : (text "pcrValues", pcrValuesJson ev.pcrs) ∈ (evidenceFields ev).entries :=
    mem_evidenceFields.mpr (.inl (.inl (.inl (.inl (by simp)))))
  rw [parse_jsonBuild_iff le_rfl hfield fun depth => evidenceBody_exact depth ev]
  exact and_iff_left_of_imp fun hread => h.verdict hread.names

/-- For every run of each call, its text is JSON that decodes to what was assembled exactly if no
value meant as a string is taken for a raw one or holds what a JSON string cannot. -/
theorem emitted_json_decodes_iff (sys : System) (w : World) :
    (∀ outEnrollJson env inFlight,
      ∀ json ∈ ((rootHeraldEnrollBegin sys outEnrollJson env inFlight).run w).1.json, ∃ ek p,
        gatherEkEnrollData sys.sha256 env.sources = some ek ∧
          ((rootHeraldEnrollBegin sys outEnrollJson env inFlight).run w).1.inFlight = some p ∧
          (parse json = some (enrollBody ek p.akPubArea) ↔ ek.ekPub ∉ literalBytes)) ∧
    (∀ challenge outActivateJson allocated p,
      ∀ json ∈ completedText sys challenge outActivateJson allocated p w,
        parse json = some (activateBody (jsonGet challenge (text "deviceId")) (releasedSecret sys challenge p w)) ↔
          Plain (jsonGet challenge (text "deviceId")) ∧ releasedSecret sys challenge p w ∉ literalBytes) ∧
    ∀ env nonceB64 outEvidenceJson status json,
      ((rootHeraldCollectEvidence sys (some nonceB64) outEvidenceJson env).run w).1 = .ok (status, some json) →
        ∃ ev, CollectedFrom sys env nonceB64 ev ∧ (parse json = some (evidenceBody ev) ↔ Readable ev) := by
  refine ⟨?_, ?_, ?_⟩
  · intro outEnrollJson env inFlight json hjson
    obtain ⟨ek, p, hgather, hp, hak, rfl⟩ :=
      rootHeraldEnrollBegin_text sys outEnrollJson env inFlight w trivial json hjson
    exact ⟨ek, p, hgather, hp, parse_enroll_iff hgather hak⟩
  · intro challenge outActivateJson allocated p json hjson
    obtain rfl := rootHeraldEnrollComplete_text sys challenge outActivateJson allocated p w w rfl json hjson
    exact parse_activate_iff _ _
  · intro env nonceB64 outEvidenceJson status json hrun
    obtain ⟨ev, hev, rfl⟩ := rootHeraldCollectEvidence_text sys env nonceB64 outEvidenceJson w trivial status json hrun
    exact ⟨ev, hev, parse_evidence_iff hev⟩

/-- A challenge whose deviceId is one bracket. -/
def bracketChallenge : Bytes :=
  text "\x7b\"deviceId\":\"[\",\"credentialBlob\":\"AAA=\",\"encryptedSecret\":\"AAA=\"\x7d"

def bracketBody : Bytes := text "\x7b\"decryptedSecret\":\"Bw==\",\"deviceId\":[\x7d"

def sampleWorld : World := { tpm := enrolledTpm, outcomes := List.replicate 8 answered }

/-- The bracket is embedded as it is, and the text handed out is not JSON. -/
theorem enrollComplete_emits_no_json :
    ¬ ∀ (sys : System) (w : World) (challenge : Bytes) (outActivateJson allocated : Bool) (p : TbsKeyProvider),
      ∀ json ∈ completedText sys challenge outActivateJson allocated p w,
        parse json = some (activateBody (jsonGet challenge (text "deviceId")) (releasedSecret sys challenge p w)) := by
  intro h
  have hjson : completedText sampleSystem bracketChallenge true true sampleProvider sampleWorld = some bracketBody := by
    decide +kernel
  have hparse := h sampleSystem sampleWorld bracketChallenge true true sampleProvider bracketBody hjson
  have hnone : (parse bracketBody).isNone = true := by decide +kernel
  rw [hparse] at hnone
  cases hnone

end Emitted
end RootHerald.Windows
