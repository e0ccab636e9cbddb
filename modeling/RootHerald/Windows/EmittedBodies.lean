import RootHerald.Windows.JsonEmission
import RootHerald.Boot.SecureBootConclusion

/-! The three bodies the Windows client emits: what they are meant to say, and when a reader gets it
back. -/
namespace RootHerald.Windows
open Lib Json Boot

section Literals

/-- The member names of the bodies. -/
def bodyNames : List Bytes :=
  [text "ekPublicKey", text "akPublicArea", text "platform", text "ekCertPem", text "ekCertificateChain",
    text "deviceId", text "decryptedSecret", text "sha256", text "quoted", text "signature", text "nonce",
    text "pcrValues", text "quote", text "secureBootChain", text "eventLog", text "secureBootEnabled", text "pkSubject",
    text "pkIssuer", text "pkOemName", text "pkIsKnownOem", text "kekHasMicrosoft", text "dbHasMicrosoftUefiCa",
    text "dbHasMicrosoftWindowsPca", text "dbxHashCount", text "totalMeasurements", text "verifiedCount",
    text "unknownCount", text "revokedCount", text "verdict"]

private theorem bodyNames_plain : ∀ key ∈ bodyNames, ∀ c ∈ key, isPlain c := by decide +kernel

/-- What verdicts, errors and warnings say in the client's own words. -/
def ownTexts : List Bytes :=
  [text "windows", text "FAIL: ", text "WARNING: ", text "FAIL: No Platform Key", text "FAIL: Secure Boot disabled",
    text "PASS: Secure Boot chain fully validated — PK from ", text ", Microsoft UEFI CA in db, Microsoft KEK present",
    text "Platform Key issuer not recognized as a known OEM: ",
    text "KEK does not contain Microsoft's KEK certificate — boot chain may not be controlled by Microsoft",
    text ("db does not contain Microsoft's UEFI CA — " ++
      "only Microsoft-signed boot components are trusted on standard systems")]

private theorem ownTexts_plain : ∀ v ∈ ownTexts, Plain v ∧ v.head?.any (· ∉ rawStarts) = true := by
  -- each text on its own, as the kernel keeps all that it evaluates in one check
  simp only [ownTexts, List.forall_mem_cons]
  refine ⟨?_, ?_, ?_, ?_, ?_, ?_, ?_, ?_, ?_, ?_, List.forall_mem_nil _⟩
  all_goals decide +kernel

end Literals

section Enrollment

/-- A chain is an array of certificates, every other field a string. -/
def enrollMeant (ek : EkEnrollData) (key value : Bytes) : Json :=
  if key = text "ekCertificateChain" then .array (ek.intermediates.map fun cert => .string (derToPem cert))
  else .string value

def enrollBody (ek : EkEnrollData) (akPub : Bytes) : Json := assembled (enrollMeant ek) (buildEnrollFields ek akPub)

def activateBody (deviceId secret : Bytes) : Json := assembled (fun _ => .string) (activateFields deviceId secret)

theorem mem_buildEnrollFields {ek : EkEnrollData} {akPub : Bytes} {e : Bytes × Bytes} :
    e ∈ (buildEnrollFields ek akPub).entries ↔
      (e ∈ [(text "ekPublicKey", base64Encode ek.ekPub), (text "akPublicArea", base64Encode akPub),
          (text "platform", text "windows")] ∨
        ek.ekCertPem ≠ [] ∧ e = (text "ekCertPem", ek.ekCertPem)) ∨
      ek.intermediates ≠ [] ∧ e = (text "ekCertificateChain", pemArray ek.intermediates) := by
  unfold buildEnrollFields
  rw [OrdMap.mem_insert_if, OrdMap.mem_insert_if, OrdMap.mem_ofList (by simp)]
  · simp [OrdMap.ofList]
  · rw [OrdMap.find?_insert_if]
    simp [OrdMap.ofList]

theorem buildEnrollFields_names {ek : EkEnrollData} {akPub : Bytes} :
    ∀ e ∈ (buildEnrollFields ek akPub).entries, ∀ c ∈ e.1, isPlain c := by
  intro e he
  simp only [mem_buildEnrollFields, List.mem_cons, List.not_mem_nil, or_false] at he
  rcases he with ((rfl | rfl | rfl) | ⟨-, rfl⟩) | ⟨-, rfl⟩ <;> exact bodyNames_plain _ (by simp [bodyNames])

/-- The body of an enrollment decodes as meant unless a key is taken for a literal. -/
theorem enrollBody_exact (depth : Nat) (ek : EkEnrollData) (akPub : Bytes) :
    Exact (readValue (depth + 3)) (jsonBuild (buildEnrollFields ek akPub)) (enrollBody ek akPub)
      (ek.ekPub ∉ literalBytes ∧ akPub ∉ literalBytes ∧ Plain ek.ekCertPem) := by
  have hexact : Exact (readValue (depth + 3)) (jsonBuild (buildEnrollFields ek akPub)) (enrollBody ek akPub)
      (∀ e ∈ (buildEnrollFields ek akPub).entries, e.1 = text "ekCertificateChain" ∨ Plain e.2) := by
    refine jsonBuild_exact buildEnrollFields_names fun e he => ?_
    simp only [mem_buildEnrollFields, List.mem_cons, List.not_mem_nil, or_false] at he
    rcases he with ((rfl | rfl | rfl) | ⟨-, rfl⟩) | ⟨-, rfl⟩
    · simpa [enrollMeant] using jsonValue_exact (depth + 1) (base64Encode ek.ekPub)
    · simpa [enrollMeant] using jsonValue_exact (depth + 1) (base64Encode akPub)
    · simpa [enrollMeant] using jsonValue_exact (depth + 1) (text "windows")
    · simpa [enrollMeant] using jsonValue_exact (depth + 1) ek.ekCertPem
    · simpa [enrollMeant] using jsonValue_pemArray_exact depth ek.intermediates
  have hwindows : Plain (text "windows") := (ownTexts_plain _ (by simp [ownTexts])).1
  have hpem : ek.ekCertPem = [] → Plain ek.ekCertPem := fun h => h ▸ by decide
  apply hexact.congr
  simp [mem_buildEnrollFields, or_imp, forall_and, plain_base64Encode, hwindows]
  tauto

theorem mem_activateFields {deviceId secret : Bytes} {e : Bytes × Bytes} : e ∈ (activateFields deviceId secret).entries ↔
    e = (text "deviceId", deviceId) ∨ e = (text "decryptedSecret", base64Encode secret) := by
  rw [activateFields, OrdMap.mem_ofList (by simp)]
  simp

/-- The body of an activation decodes as meant if the id is plain and the secret is not taken for a literal. -/
theorem activateBody_exact (depth : Nat) (deviceId secret : Bytes) :
    Exact (readValue (depth + 2)) (jsonBuild (activateFields deviceId secret)) (activateBody deviceId secret)
      (Plain deviceId ∧ secret ∉ literalBytes) := by
  have hexact : Exact (readValue (depth + 2)) (jsonBuild (activateFields deviceId secret)) (activateBody deviceId secret)
      (∀ e ∈ (activateFields deviceId secret).entries, Plain e.2) := by
    refine jsonBuild_exact (fun e he => ?_) fun e _ => jsonValue_exact depth e.2
    rcases mem_activateFields.1 he with rfl | rfl <;> exact bodyNames_plain _ (by simp [bodyNames])
  apply hexact.congr
  simp [mem_activateFields, plain_base64Encode]

end Enrollment

section Evidence

def pcrValuesMeant (values : List (Nat × Bytes)) : Json :=
  .object [(text "sha256", .object (values.map fun v => (decimal v.1, .string (hexEncode v.2))))]

def quoteMeant (quoted signature nonce : Bytes) : Json :=
  assembled (fun _ => .string) (quoteFields quoted signature nonce)

/-- The fields of the report that are true or false. -/
def secureBootFlags : List Bytes :=
  [text "secureBootEnabled", text "pkIsKnownOem", text "kekHasMicrosoft", text "dbHasMicrosoftUefiCa",
    text "dbHasMicrosoftWindowsPca"]

def secureBootFieldMeant (key value : Bytes) : Json :=
  if key ∈ secureBootFlags then .bool (value = text "true") else .string value

def secureBootMeant : Option (SecureBootChainReport × EventLogAnalysis) → Json
  | none => .null
  | some (chainReport, eventAnalysis) => assembled secureBootFieldMeant (secureBootFields chainReport eventAnalysis)

def evidenceMeant (e : Evidence) (key value : Bytes) : Json :=
  if key = text "pcrValues" then pcrValuesMeant e.pcrs
  else if key = text "quote" then quoteMeant e.quoted e.signature e.nonce
  else if key = text "secureBootChain" then secureBootMeant e.secureBoot
  else if key = text "ekCertificateChain" then .array (e.ekChain.map fun cert => .string (derToPem cert))
  else .string value

def evidenceBody (e : Evidence) : Json := assembled (evidenceMeant e) (evidenceFields e)

theorem isPlain_decimal (n : Nat) : ∀ c ∈ decimal n, isPlain c := by
  intro c hc
  obtain ⟨v, hv, rfl⟩ := mem_decimal hc
  exact (by decide : ∀ v < 10, isPlain (hexDigit v)) v hv

theorem isPlain_hexEncode (bs : Bytes) : ∀ c ∈ hexEncode bs, isPlain c := by
  intro c hc
  obtain ⟨v, hv, rfl⟩ := mem_hexEncode hc
  exact (by decide : ∀ v < 16, isPlain (hexDigit v)) v hv

/-- A string of characters that stand for themselves. -/
private theorem plainString_exact (depth : Nat) {v : Bytes} (h : ∀ c ∈ v, isPlain c) :
    Exact (readValue (depth + 1)) (quotationMark :: (v ++ [quotationMark])) (.string v) True := by
  refine .cons readValue_string (.map (fun _ _ => string.inj) ⟨fun _ rest => ?_, fun hF => absurd trivial hF⟩)
  rw [List.append_assoc]
  exact readString_plain h rest

theorem pcrValuesJson_eq (values : List (Nat × Bytes)) : pcrValuesJson values =
    objectText [memberText (text "sha256") (objectText (values.map fun v =>
      memberText (decimal v.1) (quotationMark :: (hexEncode v.2 ++ [quotationMark]))))] := by
  have hopen : text "\x7b\"sha256\":\x7b" = [openBrace, quotationMark] ++ text "sha256" ++
      [quotationMark, colon, openBrace] := by decide
  have hclose : text "\x7d\x7d" = [closeBrace, closeBrace] := by decide
  have hquote : text "\"" = [quotationMark] := by decide
  have hmiddle : text "\":\"" = [quotationMark, colon, quotationMark] := by decide
  have hcomma : ','.toUInt8 = comma := rfl
  simp only [pcrValuesJson, hopen, hclose, hquote, hmiddle, hcomma, objectText, memberText, commaSeparated,
    List.intercalate_singleton, List.append_assoc, List.cons_append, List.nil_append]

theorem pcrValues_exact (depth : Nat) (values : List (Nat × Bytes)) :
    Exact (readValue (depth + 3)) (jsonValue (pcrValuesJson values)) (pcrValuesMeant values) True := by
  have hraw : jsonValue (pcrValuesJson values) = pcrValuesJson values := by
    rw [pcrValuesJson_eq, objectText, jsonValue_openBrace]
  have hname : ∀ v ∈ values, ∀ c ∈ decimal v.1, isPlain c := fun v _ => isPlain_decimal v.1
  have hsha256 : ∀ _ ∈ [()], ∀ c ∈ text "sha256", isPlain c := fun _ _ => bodyNames_plain _ (by simp [bodyNames])
  have hinner := object_exact (P := fun _ => True) (t := fun v => quotationMark :: (hexEncode v.2 ++ [quotationMark]))
    (v := fun v => .string (hexEncode v.2))
    hname fun v _ => plainString_exact depth (isPlain_hexEncode v.2)
  have houter := object_exact hsha256 fun _ _ => hinner
  rw [hraw, pcrValuesJson_eq]
  exact houter.congr (by simp)

theorem mem_quoteFields {quoted signature nonce : Bytes} {e : Bytes × Bytes} :
    e ∈ (quoteFields quoted signature nonce).entries ↔ e = (text "quoted", base64Encode quoted) ∨
      e = (text "signature", base64Encode signature) ∨ e = (text "nonce", base64Encode nonce) := by
  rw [quoteFields, OrdMap.mem_ofList (by simp)]
  simp

theorem quote_exact (depth : Nat) (quoted signature nonce : Bytes) :
    Exact (readValue (depth + 2)) (jsonValue (jsonBuild (quoteFields quoted signature nonce)))
      (quoteMeant quoted signature nonce) (quoted ∉ literalBytes ∧ signature ∉ literalBytes ∧ nonce ∉ literalBytes) := by
  have hexact : Exact (readValue (depth + 2)) (jsonBuild (quoteFields quoted signature nonce))
      (quoteMeant quoted signature nonce) (∀ e ∈ (quoteFields quoted signature nonce).entries, Plain e.2) := by
    refine jsonBuild_exact (fun e he => ?_) fun e _ => jsonValue_exact depth e.2
    rcases mem_quoteFields.1 he with rfl | rfl | rfl <;> exact bodyNames_plain _ (by simp [bodyNames])
  rw [jsonValue_jsonBuild]
  apply hexact.congr
  simp [mem_quoteFields, plain_base64Encode]

/-- The names of the first Platform Key are plain. -/
def PlainNames (chainReport : SecureBootChainReport) : Prop :=
  Plain ((chainReport.pkCerts.head?.map CertInfo.subject).getD []) ∧
    Plain ((chainReport.pkCerts.head?.map CertInfo.issuer).getD []) ∧ Plain chainReport.pkOemName

theorem mem_secureBootFields {chainReport : SecureBootChainReport} {eventAnalysis : EventLogAnalysis}
    {e : Bytes × Bytes} : e ∈ (secureBootFields chainReport eventAnalysis).entries ↔
      e ∈ secureBootEntries chainReport eventAnalysis :=
  OrdMap.mem_ofList (by simp [secureBootEntries])

theorem secureBootFields_names {chainReport : SecureBootChainReport} {eventAnalysis : EventLogAnalysis} :
    ∀ e ∈ (secureBootFields chainReport eventAnalysis).entries, ∀ c ∈ e.1, isPlain c := by
  intro e he
  have hmem : ∀ e ∈ secureBootEntries chainReport eventAnalysis, e.1 ∈ bodyNames := by simp [secureBootEntries, bodyNames]
  exact bodyNames_plain e.1 (hmem e (mem_secureBootFields.1 he))

private theorem secureBootEntries_kind (chainReport : SecureBootChainReport) (eventAnalysis : EventLogAnalysis) :
    ∀ e ∈ secureBootEntries chainReport eventAnalysis,
      e.1 ∉ secureBootFlags ∨ e.1 ∈ secureBootFlags ∧ ∃ b, e.2 = boolText b := by
  simp [-Bool.exists_bool, secureBootEntries, secureBootFlags]

private theorem secureBootEntries_plain (chainReport : SecureBootChainReport) (eventAnalysis : EventLogAnalysis) :
    (∀ e ∈ secureBootEntries chainReport eventAnalysis, e.1 ∈ secureBootFlags ∨ Plain e.2) ↔
      PlainNames chainReport ∧ Plain chainReport.verdict := by
  simp [secureBootEntries, secureBootFlags, PlainNames, plain_decimal, and_assoc]

private theorem secureBootFieldMeant_exact (depth : Nat) {key value : Bytes}
    (h : key ∉ secureBootFlags ∨ key ∈ secureBootFlags ∧ ∃ b, value = boolText b) :
    Exact (readValue (depth + 1)) (jsonValue value) (secureBootFieldMeant key value)
      (key ∈ secureBootFlags ∨ Plain value) := by
  rcases h with hkey | ⟨hkey, b, rfl⟩
  · rw [secureBootFieldMeant, if_neg hkey]
    exact (jsonValue_exact depth value).congr (by simp [hkey])
  · have hb : decide (boolText b = text "true") = b := by cases b <;> simp [boolText]
    rw [secureBootFieldMeant, if_pos hkey, hb]
    exact (jsonValue_boolText_exact depth b).congr (by simp [hkey])

theorem secureBoot_exact (depth : Nat) (chainReport : SecureBootChainReport) (eventAnalysis : EventLogAnalysis) :
    Exact (readValue (depth + 2)) (jsonValue (jsonBuild (secureBootFields chainReport eventAnalysis)))
      (assembled secureBootFieldMeant (secureBootFields chainReport eventAnalysis))
      (PlainNames chainReport ∧ Plain chainReport.verdict) := by
  have hexact : Exact (readValue (depth + 2)) (jsonBuild (secureBootFields chainReport eventAnalysis))
      (assembled secureBootFieldMeant (secureBootFields chainReport eventAnalysis))
      (∀ e ∈ (secureBootFields chainReport eventAnalysis).entries, e.1 ∈ secureBootFlags ∨ Plain e.2) :=
    jsonBuild_exact secureBootFields_names fun e he =>
      secureBootFieldMeant_exact depth (secureBootEntries_kind _ _ e (mem_secureBootFields.1 he))
  rw [jsonValue_jsonBuild]
  apply hexact.congr
  simp only [mem_secureBootFields]
  exact secureBootEntries_plain chainReport eventAnalysis

theorem secureBootJson_exact (depth : Nat) (secureBoot : Option (SecureBootChainReport × EventLogAnalysis)) :
    Exact (readValue (depth + 2)) (jsonValue (secureBootJson secureBoot)) (secureBootMeant secureBoot)
      (∀ report ∈ secureBoot, PlainNames report.1 ∧ Plain report.1.verdict) := by
  cases secureBoot with
  | none => exact (jsonValue_null_exact (depth + 1)).congr (by simp)
  | some report => exact (secureBoot_exact depth report.1 report.2).congr (by simp)

theorem mem_evidenceFields {ev : Evidence} {e : Bytes × Bytes} : e ∈ (evidenceFields ev).entries ↔
    (((e ∈ [(text "pcrValues", pcrValuesJson ev.pcrs),
        (text "quote", jsonBuild (quoteFields ev.quoted ev.signature ev.nonce)),
        (text "secureBootChain", secureBootJson ev.secureBoot)] ∨
      ev.eventLog ≠ [] ∧ e = (text "eventLog", base64Encode ev.eventLog)) ∨
      32 < ev.ekCertDer.length ∧ e = (text "ekCertPem", derToPem ev.ekCertDer)) ∨
      ev.ekChain ≠ [] ∧ e = (text "ekCertificateChain", pemArray ev.ekChain)) ∨
    ev.deviceId ≠ [] ∧ e = (text "deviceId", ev.deviceId) := by
  unfold evidenceFields
  rw [OrdMap.mem_insert_if, OrdMap.mem_insert_if, OrdMap.mem_insert_if, OrdMap.mem_insert_if,
    OrdMap.mem_ofList (by simp)]
  all_goals repeat rw [OrdMap.find?_insert_if]
  all_goals simp [OrdMap.ofList]

theorem evidenceFields_names {ev : Evidence} : ∀ e ∈ (evidenceFields ev).entries, ∀ c ∈ e.1, isPlain c := by
  intro e he
  simp only [mem_evidenceFields, List.mem_cons, List.not_mem_nil, or_false] at he
  rcases he with ((((rfl | rfl | rfl) | ⟨-, rfl⟩) | ⟨-, rfl⟩) | ⟨-, rfl⟩) | ⟨-, rfl⟩ <;>
    exact bodyNames_plain _ (by simp [bodyNames])

/-- No signed value is taken for a literal, and the names and the id are plain. -/
structure Readable (ev : Evidence) : Prop where
  quoted : ev.quoted ∉ literalBytes
  signature : ev.signature ∉ literalBytes
  nonce : ev.nonce ∉ literalBytes
  names : ∀ report ∈ ev.secureBoot, PlainNames report.1
  eventLog : ev.eventLog ∉ literalBytes
  deviceId : Plain ev.deviceId

/-- The condition of one field of the evidence. -/
private def FieldReadable (ev : Evidence) (key value : Bytes) : Prop :=
  if key = text "pcrValues" then True
  else if key = text "quote" then ev.quoted ∉ literalBytes ∧ ev.signature ∉ literalBytes ∧ ev.nonce ∉ literalBytes
  else if key = text "secureBootChain" then ∀ report ∈ ev.secureBoot, PlainNames report.1 ∧ Plain report.1.verdict
  else if key = text "ekCertificateChain" then True
  else Plain value

private theorem fieldReadable_iff (ev : Evidence) : (∀ e ∈ (evidenceFields ev).entries, FieldReadable ev e.1 e.2) ↔
    Readable ev ∧ ∀ report ∈ ev.secureBoot, Plain report.1.verdict := by
  have hfields : (∀ e ∈ (evidenceFields ev).entries, FieldReadable ev e.1 e.2) ↔
      (ev.quoted ∉ literalBytes ∧ ev.signature ∉ literalBytes ∧ ev.nonce ∉ literalBytes) ∧
        (∀ report ∈ ev.secureBoot, PlainNames report.1 ∧ Plain report.1.verdict) ∧
        (ev.eventLog ≠ [] → ev.eventLog ∉ literalBytes) ∧ (ev.deviceId ≠ [] → Plain ev.deviceId) := by
    simp [mem_evidenceFields, or_imp, forall_and, and_assoc, FieldReadable, plain_base64Encode, plain_derToPem]
  have heventLog : ev.eventLog = [] → ev.eventLog ∉ literalBytes := fun h => h ▸ by decide
  have hdeviceId : ev.deviceId = [] → Plain ev.deviceId := fun h => h ▸ by decide
  rw [hfields]
  constructor
  · rintro ⟨⟨hquoted, hsignature, hnonce⟩, hreport, hlog, hid⟩
    exact ⟨⟨hquoted, hsignature, hnonce, fun report hr => (hreport report hr).1, Decidable.byCases heventLog hlog,
      Decidable.byCases hdeviceId hid⟩, fun report hr => (hreport report hr).2⟩
  · rintro ⟨h, hverdict⟩
    exact ⟨⟨h.quoted, h.signature, h.nonce⟩, fun report hr => ⟨h.names report hr, hverdict report hr⟩,
      fun _ => h.eventLog, fun _ => h.deviceId⟩

theorem evidenceBody_exact (depth : Nat) (ev : Evidence) :
    Exact (readValue (depth + 4)) (jsonBuild (evidenceFields ev)) (evidenceBody ev)
      (Readable ev ∧ ∀ report ∈ ev.secureBoot, Plain report.1.verdict) := by
  refine Exact.congr (jsonBuild_exact evidenceFields_names fun e he => ?_) (fieldReadable_iff ev)
  simp only [mem_evidenceFields, List.mem_cons, List.not_mem_nil, or_false] at he
  rcases he with ((((rfl | rfl | rfl) | ⟨-, rfl⟩) | ⟨-, rfl⟩) | ⟨-, rfl⟩) | ⟨-, rfl⟩
  · simpa [evidenceMeant, FieldReadable] using pcrValues_exact depth ev.pcrs
  · simpa [evidenceMeant, FieldReadable] using quote_exact (depth + 1) ev.quoted ev.signature ev.nonce
  · simpa [evidenceMeant, FieldReadable] using secureBootJson_exact (depth + 1) ev.secureBoot
  · simpa [evidenceMeant, FieldReadable] using jsonValue_exact (depth + 2) (base64Encode ev.eventLog)
  · simpa [evidenceMeant, FieldReadable] using jsonValue_exact (depth + 2) (derToPem ev.ekCertDer)
  · simpa [evidenceMeant, FieldReadable] using jsonValue_pemArray_exact (depth + 1) ev.ekChain
  · simpa [evidenceMeant, FieldReadable] using jsonValue_exact (depth + 2) ev.deviceId

end Evidence

section Verdict

private theorem plain_ownText_append {v w : Bytes} (hv : v ∈ ownTexts) (hw : isText w = true) : Plain (v ++ w) :=
  plain_append (ownTexts_plain v hv).2 (ownTexts_plain v hv).1.2 hw

private theorem finalVerdict_plain {report : SecureBootChainReport} (herrors : ∀ e ∈ report.errors, isText e = true)
    (hwarnings : ∀ w ∈ report.warnings, isText w = true) (hname : isText report.pkOemName = true) :
    Plain (finalVerdict report).verdict := by
  unfold finalVerdict
  split
  · rename_i heq
    exact plain_ownText_append (by simp [ownTexts]) (herrors _ (heq ▸ List.mem_cons_self))
  · rename_i heq
    exact plain_ownText_append (by simp [ownTexts]) (hwarnings _ (heq ▸ List.mem_cons_self))
  · dsimp only
    rw [List.append_assoc]
    exact plain_ownText_append (by simp [ownTexts]) ((isText_append hname).trans (ownTexts_plain _ (by simp [ownTexts])).1.2)

private theorem finalVerdict_names (report : SecureBootChainReport) :
    (finalVerdict report).pkCerts = report.pkCerts ∧ (finalVerdict report).pkOemName = report.pkOemName := by
  unfold finalVerdict
  split <;> exact ⟨rfl, rfl⟩

private theorem judgeChain_names (report : SecureBootChainReport) :
    (judgeChain report).pkCerts = report.pkCerts ∧ (judgeChain report).pkOemName = report.pkOemName := by
  unfold judgeChain
  dsimp only
  split_ifs <;> simp [finalVerdict_names]

/-- A verdict on a report without earlier errors and warnings quotes at most the names of the report. -/
theorem judgeChain_verdict_plain {report : SecureBootChainReport} (herrors : report.errors = [])
    (hwarnings : report.warnings = []) (hnames : PlainNames (judgeChain report)) :
    Plain (judgeChain report).verdict := by
  have hown : ∀ v ∈ ownTexts, isText v = true := fun v hv => (ownTexts_plain v hv).1.2
  obtain ⟨hsubject, -, hname⟩ := hnames
  rw [(judgeChain_names report).1] at hsubject
  rw [(judgeChain_names report).2] at hname
  unfold judgeChain
  by_cases hsb : report.secureBootEnabled = true
  · rw [if_neg (by simp [hsb])]
    by_cases hcerts : report.pkCerts = []
    · rw [if_pos hcerts]
      exact (ownTexts_plain _ (by simp [ownTexts])).1
    · rw [if_neg hcerts]
      obtain ⟨c, cs, hpk⟩ := List.exists_cons_of_ne_nil hcerts
      have hwarning : isText (text "Platform Key issuer not recognized as a known OEM: " ++ c.subject) = true :=
        (isText_append (ownTexts_plain _ (by simp [ownTexts])).1.2).trans (by simpa [hpk] using hsubject.2)
      dsimp only
      split_ifs <;> refine finalVerdict_plain ?_ ?_ hname.2 <;> simp [herrors, hwarnings, hpk, hwarning]
      all_goals first | exact hown _ (by simp [ownTexts]) | exact ⟨hown _ (by simp [ownTexts]), hown _ (by simp [ownTexts])⟩
  · rw [if_pos hsb]
    exact (ownTexts_plain _ (by simp [ownTexts])).1

end Verdict
end RootHerald.Windows
