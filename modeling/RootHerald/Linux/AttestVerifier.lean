import RootHerald.Linux.AttestExchange
import RootHerald.Linux.EnrollRegistrar

/-! Attest against a server that judges what it reads in the body: what it reads is what the TPM and the kernel gave,
and its judgement is what the device hears. -/
namespace RootHerald.Linux
open Lib Json

section Status

/-- A body is posted where the calls up to the quote succeed, and OK is returned where the reply says verified. -/
theorem attestNonce_status (codes : List Bool) (sessionId nonce : Bytes) (nonceLen : Nat) (reply : AttestReply) :
    Triple (Reached codes 0) (attestNonce sessionId nonce nonceLen reply) fun r _ =>
      (r.posted = true ↔ Succeed codes callsToQuote) ∧
        (r.status = .ok ↔ Succeed codes callsToQuote ∧ reply.httpCode = 200 ∧ reply.status = text "verified") := by
  have hnotOk : RootHeraldResult.attestationFailed ≠ .ok := by decide
  have hfail {m : Nat} {status : RootHeraldResult} (hm : m ≤ callsToQuote) (h : ¬ Succeed codes m)
      (hstatus : status ≠ .ok) : ((false = true) ↔ Succeed codes callsToQuote) ∧
        (status = .ok ↔ Succeed codes callsToQuote ∧ reply.httpCode = 200 ∧ reply.status = text "verified") :=
    ⟨iff_of_false Bool.false_ne_true fun hs => h (hs.of_le hm), iff_of_false hstatus fun hs => h (hs.1.of_le hm)⟩
  refine .bind tpmOpen_tried fun tpm => ?_
  cases tpm with
  | none => exact .pure fun _ h => hfail (by decide) h.1 (by decide)
  | some tpm =>
    refine .assume (c := tpm = {}) (fun _ h => h.2 tpm rfl) fun htpm => ?_
    subst htpm
    refine .bind ((tpmCreateAk_tried none).pre fun _ h => h.1) fun (created, tpm) => ?_
    cases created with
    | false =>
      refine .bind ((Triple.frame (c := ¬ Succeed codes 4) _).pre fun _ h => h.1) fun _ => .pure fun _ h => ?_
      exact hfail (by decide) h (by decide)
    | true =>
      refine .assume (c := ∃ srk ak, tpm = ⟨none, some srk, some ak⟩) (fun _ h => h.2 rfl) fun ⟨srk, ak, htpm⟩ => ?_
      subst htpm
      refine .bind ((tpmQuote_tried (fun h => by cases h) nonce nonceLen).pre fun _ h => h.1) fun (quoted, quote) => ?_
      cases quoted with
      | false =>
        refine .bind (Triple.frame (c := ¬ Succeed codes 5) _) fun _ => .pure fun _ h => ?_
        exact hfail (by decide) h hnotOk
      | true =>
        refine .assume (c := Succeed codes callsToQuote) (fun _ h => h.succeed) fun hs => ?_
        refine .ite (fun h => absurd rfl h) fun _ => .ite (fun hcode => .bind (.any _) fun _ => .pure fun _ _ => ?_) fun hcode => ?_
        · exact ⟨iff_of_true rfl hs, iff_of_false hnotOk fun h => hcode h.2.1⟩
        · refine .bind (.any _) fun _ => .ite (fun hstatus => .pure fun _ _ => ?_) fun hstatus => .pure fun _ _ => ?_
          · exact ⟨iff_of_true rfl hs, iff_of_true rfl ⟨hs, not_not.mp hcode, hstatus⟩⟩
          · exact ⟨iff_of_true rfl hs, iff_of_false hnotOk fun h => hstatus h.2.2⟩

end Status

section Verifier

/-- What a verifier reads in a body. -/
structure Statement where
  sessionId : Bytes
  quoted : Bytes
  signature : Bytes
  registers : List (Bytes × Bytes)
  eventLog : Bytes

def objectIn : Option Json → Option (List (Bytes × Json))
  | some (.object members) => some members
  | _ => none

def stringIn : Option Json → Option Bytes
  | some (.string s) => some s
  | _ => none

def bytesIn (value : Option Json) : Option Bytes := (stringIn value).bind Base64.decode

def readStatement (body : Bytes) : Option Statement := do
  let members ← objectIn (parse body)
  let quote ← objectIn (members.lookup (text "quote"))
  let pcrValues ← objectIn (members.lookup (text "pcrValues"))
  let bank ← objectIn (pcrValues.lookup (text "sha256"))
  return {
    sessionId := ← stringIn (members.lookup (text "sessionId"))
    quoted := ← bytesIn (quote.lookup (text "quoted"))
    signature := ← bytesIn (quote.lookup (text "signature"))
    registers := ← bank.mapM fun m => (stringIn (some m.2)).map fun value => (m.1, value)
    eventLog := ← bytesIn (members.lookup (text "eventLog")) }

def verdictNames : List Bytes := [text "status", text "authorizationCode", text "redirectUri", text "reason"]

/-- An answer whose texts hold nothing to escape, are no names of members, and fit the fields of out_info. -/
structure Verdict where
  status : Bytes
  authorizationCode : Bytes
  redirectUri : Bytes
  reason : Bytes
  plain : ∀ value ∈ [status, authorizationCode, redirectUri, reason], (∀ c ∈ value, isPlain c) ∧ value ∉ verdictNames
  status_lt : status.length < 32
  authorizationCode_lt : authorizationCode.length < 128
  redirectUri_lt : redirectUri.length < 2048
  reason_lt : reason.length < 512

def Verdict.members (v : Verdict) : Members := [
  (text "status", v.status),
  (text "authorizationCode", v.authorizationCode),
  (text "redirectUri", v.redirectUri),
  (text "reason", v.reason)]

/-- The server at an address, with what it judges of a statement. -/
def verifier (judge : Statement → Verdict) (url : Bytes) : Server
  | [post] =>
    if post.url = url ++ attestPath then
      match readStatement post.body with
      | some statement => (200, stringsText (judge statement).members)
      | none => (400, [])
    else (404, [])
  | _ => (400, [])

/-- What the TPM and the kernel gave. -/
def statementOf (sessionId : Bytes) (e : Evidence) : Statement where
  sessionId := sessionId
  quoted := e.quoted
  signature := e.signature
  registers := pcrIndices.map fun index => (decimal index, pcrHex e index)
  eventLog := logRead e

end Verifier

section Reading

private theorem distinct_members : (text "quote" == text "sessionId") = false ∧
    (text "pcrValues" == text "sessionId") = false ∧ (text "pcrValues" == text "quote") = false ∧
    (text "eventLog" == text "sessionId") = false ∧ (text "eventLog" == text "quote") = false ∧
    (text "eventLog" == text "pcrValues") = false ∧ (text "signature" == text "quoted") = false := by
  decide +kernel

private theorem mapM_strings (members : Members) :
    ((members.map fun m => (m.1, Json.string m.2)).mapM fun m => (stringIn (some m.2)).map fun value => (m.1, value)) =
      some members := by
  induction members with
  | nil => rfl
  | cons m members ih =>
    rw [List.map_cons, List.mapM_cons, ih]
    rfl

/-- A whole body is read as what the TPM and the kernel gave. -/
theorem readStatement_bodyText {sessionId : Bytes} (htext : Windows.isText sessionId = true) (e : Evidence) :
    readStatement (bodyText sessionId e) = some (statementOf sessionId e) := by
  obtain ⟨h₁, h₂, h₃, h₄, h₅, h₆, h₇⟩ := distinct_members
  have hregisters := mapM_strings (pcrIndices.map fun index => (decimal index, pcrHex e index))
  rw [List.map_map] at hregisters
  unfold readStatement
  rw [parse_bodyText, if_pos htext]
  simp only [objectIn, bodyValue, quoteValue, pcrValue, List.lookup_cons, h₁, h₂, h₃, h₄, h₅, h₆, h₇, beq_self_eq_true,
    Option.bind_eq_bind, Option.bind_some, stringIn, bytesIn, Base64.decode_encode]
  exact congrArg (fun registers : Option (List (Bytes × Bytes)) => registers.bind fun registers =>
    some (⟨sessionId, e.quoted, e.signature, registers, logRead e⟩ : Statement)) hregisters

/-- A body that runs out of room, or whose session id is no text, is read as nothing. -/
theorem readStatement_attestBody {sessionId t : Bytes} {e : Evidence} (ht : attestBody sessionId e = .ok t) :
    readStatement t = if Windows.isText sessionId = true ∧ (bodyText sessionId e).length < bodySize then
      some (statementOf sessionId e) else none := by
  split_ifs with hwhole
  · rw [(attestBody_fits hwhole.1 hwhole.2).1] at ht
    obtain rfl := Except.ok.inj ht
    exact readStatement_bodyText hwhole.1 e
  · unfold readStatement
    cases hobject : objectIn (parse t) with
    | none => rfl
    | some members =>
      have hparse : parse t = some (.object members) := by
        unfold objectIn at hobject
        split at hobject
        · rename_i members' hparse
          rw [hparse, Option.some.inj hobject]
        · cases hobject
      exact absurd (attestBody_object ht hparse).2 hwhole

private theorem isVerdictName : ∀ name ∈ verdictNames, IsName name := by decide +kernel

private theorem verdictName_lengths : (text "status").length = 6 ∧ (text "authorizationCode").length = 17 ∧
    (text "redirectUri").length = 11 ∧ (text "reason").length = 6 ∧ text "status" ≠ text "reason" := by decide

theorem verdict_plain (v : Verdict) : PlainMembers v.members := by
  have hnames : ∀ name ∈ verdictNames, ∀ c ∈ name, isPlain c := fun name h => (isVerdictName name h).plain
  have hplain := v.plain
  simp only [verdictNames, List.forall_mem_cons, List.not_mem_nil, false_imp_iff, implies_true, and_true] at hnames hplain
  simp only [PlainMembers, Verdict.members, List.forall_mem_cons, List.not_mem_nil, false_imp_iff, implies_true, and_true]
  exact ⟨⟨hnames.1, hplain.1.1⟩, ⟨hnames.2.1, hplain.2.1.1⟩, ⟨hnames.2.2.1, hplain.2.2.1.1⟩, hnames.2.2.2, hplain.2.2.2.1⟩

theorem verdictText_length (v : Verdict) : (stringsText v.members).length < responseSize := by
  obtain ⟨hstatusName, hcodeName, huriName, hreasonName, -⟩ := verdictName_lengths
  have hplain := v.plain
  simp only [List.forall_mem_cons, List.not_mem_nil, false_imp_iff, implies_true, and_true] at hplain
  have hstatus := @plain_string_length (text "status") _ hplain.1.1
  have hcode := @plain_string_length (text "authorizationCode") _ hplain.2.1.1
  have huri := @plain_string_length (text "redirectUri") _ hplain.2.2.1.1
  have hreason := @plain_string_length (text "reason") _ hplain.2.2.2.1
  have hlength := objectText_length (.string (text "status") v.status)
    [.string (text "authorizationCode") v.authorizationCode, .string (text "redirectUri") v.redirectUri,
      .string (text "reason") v.reason]
  simp only [List.map_cons, List.map_nil, List.sum_cons, List.sum_nil] at hlength
  have hle₁ := v.status_lt
  have hle₂ := v.authorizationCode_lt
  have hle₃ := v.redirectUri_lt
  have hle₄ := v.reason_lt
  change (objectText _).length < _
  simp only [Verdict.members, List.map_cons, List.map_nil]
  rw [hlength]
  unfold responseSize
  omega

/-- Attest finds in the reply what the server put there. -/
theorem attestReply_verdict (v : Verdict) : attestReply 200 (stringsText v.members) =
    ⟨200, v.status, v.authorizationCode, v.redirectUri, v.reason⟩ := by
  have hplain := verdict_plain v
  have hroom := verdictText_length v
  have hvalues := v.plain
  simp only [List.forall_mem_cons, List.not_mem_nil, false_imp_iff, implies_true, and_true] at hvalues
  obtain ⟨⟨-, hstatus⟩, ⟨-, hcode⟩, ⟨-, huri⟩, -, -⟩ := hvalues
  simp only [verdictNames, List.mem_cons, List.not_mem_nil, or_false, not_or] at hstatus hcode huri
  obtain ⟨hstatusName, hcodeName, huriName, hreasonName, hstatusReason⟩ := verdictName_lengths
  have hstatusCode : text "status" ≠ text "authorizationCode" := ne_of_apply_ne List.length (by omega)
  have hstatusUri : text "status" ≠ text "redirectUri" := ne_of_apply_ne List.length (by omega)
  have hcodeUri : text "authorizationCode" ≠ text "redirectUri" := ne_of_apply_ne List.length (by omega)
  have hcodeReason : text "authorizationCode" ≠ text "reason" := ne_of_apply_ne List.length (by omega)
  have huriReason : text "redirectUri" ≠ text "reason" := ne_of_apply_ne List.length (by omega)
  have hstatusRead : (jsonGet (responseText (stringsText v.members)) (text "status") 32).chars = v.status :=
    jsonGet_stringsText [] rfl hplain hroom (isVerdictName _ (by simp [verdictNames])) (List.forall_mem_nil _) v.status_lt
  have hcodeRead : (jsonGet (responseText (stringsText v.members)) (text "authorizationCode") 128).chars =
      v.authorizationCode := by
    refine jsonGet_stringsText [(text "status", v.status)] rfl hplain hroom (isVerdictName _ (by simp [verdictNames])) ?_
      v.authorizationCode_lt
    exact List.forall_mem_singleton.mpr ⟨hstatusCode, hstatus.2.1⟩
  have huriRead : (jsonGet (responseText (stringsText v.members)) (text "redirectUri") 2048).chars = v.redirectUri := by
    refine jsonGet_stringsText [(text "status", v.status), (text "authorizationCode", v.authorizationCode)] rfl hplain hroom
      (isVerdictName _ (by simp [verdictNames])) ?_ v.redirectUri_lt
    exact List.forall_mem_cons.mpr ⟨⟨hstatusUri, hstatus.2.2.1⟩, List.forall_mem_singleton.mpr ⟨hcodeUri, hcode.2.2.1⟩⟩
  have hreasonRead : (jsonGet (responseText (stringsText v.members)) (text "reason") 512).chars = v.reason := by
    refine jsonGet_stringsText [(text "status", v.status), (text "authorizationCode", v.authorizationCode),
      (text "redirectUri", v.redirectUri)] rfl hplain hroom (isVerdictName _ (by simp [verdictNames])) ?_ v.reason_lt
    exact List.forall_mem_cons.mpr ⟨⟨hstatusReason, hstatus.2.2.2⟩, List.forall_mem_cons.mpr ⟨⟨hcodeReason, hcode.2.2.2⟩,
      List.forall_mem_singleton.mpr ⟨huriReason, huri.2.2.2⟩⟩⟩
  unfold attestReply
  dsimp only
  rw [hstatusRead, hcodeRead, huriRead, hreasonRead]

end Reading

section Outcome
variable (judge : Statement → Verdict) (e : Evidence)

/-- The attestation comes to be judged: the nonce decodes to something, the quote is taken, the address fits its buffer,
the session id is text, and the body has room. -/
structure Heard (serverUrl sessionId nonceB64 : CString) (stack : Bytes) (e : Evidence) (codes : List Bool) : Prop where
  nonce : (base64Decode nonceB64.chars stack).1 ≠ 0
  succeed : Succeed codes callsToQuote
  reaches : Reaches serverUrl.chars attestPath
  isText : Windows.isText sessionId.chars = true
  fits : (bodyText sessionId.chars e).length < bodySize

/-- What out_info holds of a judgement. -/
def judgedInfo (sessionId : Bytes) (v : Verdict) : AttestationInfo :=
  ⟨sessionId.take 63, v.status, v.authorizationCode, v.redirectUri, v.reason⟩

/-- The body has room, is JSON, and reaches the server. -/
def Whole (serverUrl sessionId : Bytes) (e : Evidence) : Prop :=
  Reaches serverUrl attestPath ∧ Windows.isText sessionId = true ∧ (bodyText sessionId e).length < bodySize

variable {judge e} {serverUrl sessionId b : Bytes}

/-- The server's code is 200 exactly if the body reaches it whole. -/
theorem verifier_refuses (hb : attestBody sessionId e = .ok b) (h : ¬ Whole serverUrl sessionId e) :
    (verifier judge serverUrl [⟨endpoint serverUrl attestPath, b⟩]).1 ≠ 200 := by
  unfold verifier
  dsimp only
  split_ifs with hurl
  · have hread := readStatement_attestBody hb
    rw [if_neg fun hwhole => h ⟨endpoint_eq_iff.mp hurl, hwhole⟩] at hread
    rw [hread]
    exact (by decide : (400 : Int) ≠ 200)
  · exact (by decide : (404 : Int) ≠ 200)

theorem verifier_judges (hb : attestBody sessionId e = .ok b) (hreaches : Reaches serverUrl attestPath)
    (hwhole : Windows.isText sessionId = true ∧ (bodyText sessionId e).length < bodySize) :
    verifier judge serverUrl [⟨endpoint serverUrl attestPath, b⟩] =
      (200, stringsText (judge (statementOf sessionId e)).members) := by
  have hread := readStatement_attestBody hb
  rw [if_pos hwhole] at hread
  unfold verifier
  dsimp only
  rw [if_pos (endpoint_eq_iff.mpr hreaches), hread]

/-- The calls after the nonce is decoded. -/
theorem attestNonce_verified (judge : Statement → Verdict) (e : Evidence) (serverUrl sessionId nonce : Bytes)
    (nonceLen : Nat) (w : World) :
    let answer := ((attestNonceOnline e (verifier judge serverUrl) serverUrl sessionId nonce nonceLen).run ⟨w, []⟩).1
    let v := judge (statementOf sessionId e)
    (Succeed w.codes callsToQuote ∧ Whole serverUrl sessionId e → ∃ r, answer = .ok r ∧ r.info = judgedInfo sessionId v ∧
      (r.status = .ok ↔ v.status = text "verified")) ∧
    (¬ (Succeed w.codes callsToQuote ∧ Whole serverUrl sessionId e) → ∀ r, answer = .ok r → r.info = {} ∧
      r.status ≠ .ok) := by
  intro answer v
  obtain ⟨reply, hreply⟩ := exists_reply (verifier judge serverUrl) (endpoint serverUrl attestPath)
    (attestBody sessionId e) []
  have hsends := attestNonceOnline_sends e serverUrl sessionId nonce nonceLen ⟨w, []⟩ hreply
  have hreached : Reached w.codes 0 w := ⟨fun i hi => absurd hi (Nat.not_lt_zero i), rfl⟩
  obtain ⟨hposted, hok⟩ := attestNonce_status w.codes sessionId nonce nonceLen reply w hreached
  have hinfo := attestNonce_info w.codes sessionId nonce nonceLen reply w hreached
  generalize hr : ((attestNonce sessionId nonce nonceLen reply).run w).1 = r at hposted hok hinfo
  have hrun : (attestNonce sessionId nonce nonceLen reply w).1 = r := hr
  by_cases hsucceed : Succeed w.codes callsToQuote
  case neg =>
    refine ⟨fun h => absurd h.1 hsucceed, fun _ r' hr' => ?_⟩
    have hsilent := hsends.silent (by rw [hrun]; exact eq_false_of_ne_true fun h => hsucceed (hposted.mp h))
    obtain rfl : r' = r := by
      rw [← hrun]
      exact (Except.ok.inj ((congrArg Prod.fst hsilent).symm.trans hr')).symm
    exact ⟨hinfo.trans (if_neg fun h => hsucceed h.1), fun h => hsucceed (hok.mp h).1⟩
  have hsent : (attestNonce sessionId nonce nonceLen reply w).1.posted = true := by
    rw [hrun]
    exact hposted.mpr hsucceed
  cases hbody : attestBody sessionId e with
  | error fault =>
    refine ⟨fun h => ?_, fun _ r' hr' => ?_⟩
    · cases hbody.symm.trans (attestBody_fits h.2.2.1 h.2.2.2).1
    · cases (hsends.fault hsent fault hbody).symm.trans hr'
  | ok b =>
    have hans : answer = .ok r := by
      rw [← hrun]
      exact congrArg Prod.fst (hsends.sent hsent b hbody)
    have hheard := hreply b hbody
    rw [hans]
    by_cases hwhole : Whole serverUrl sessionId e
    · refine ⟨fun _ => ⟨r, rfl, ?_⟩, fun h => absurd ⟨hsucceed, hwhole⟩ h⟩
      rw [verifier_judges hbody hwhole.1 hwhole.2, attestReply_verdict] at hheard
      subst hheard
      exact ⟨hinfo.trans (if_pos ⟨hsucceed, rfl⟩), hok.trans ⟨fun h => h.2.2, fun h => ⟨hsucceed, rfl, h⟩⟩⟩
    · refine ⟨fun h => absurd h.2 hwhole, fun _ r' hr' => ?_⟩
      obtain rfl := Except.ok.inj hr'
      have hcode : reply.httpCode ≠ 200 := by
        rw [hheard]
        exact verifier_refuses hbody hwhole
      exact ⟨hinfo.trans (if_neg fun h => hcode h.2), fun h => hcode (hok.mp h).2.1⟩

end Outcome
end RootHerald.Linux
