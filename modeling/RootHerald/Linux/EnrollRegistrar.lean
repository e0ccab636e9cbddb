import RootHerald.Linux.EnrollExchange
import RootHerald.Linux.HostEnrollment
import RootHerald.Linux.ReplyReading

/-! Enroll against a server that keeps to the protocol: it makes a challenge of the keys it is sent, and activates the
key that brings the secret back. -/
namespace RootHerald.Linux
open Lib Json

section Posted
variable {codes : List Bool} {reply : EnrollReply} {activateCode : Int}

private theorem posted_failed {m : Nat} {P : Prop} {tpm : TpmContext} (status : RootHeraldResult) (hm : m ≤ callsToPost) :
    Triple (fun _ => ¬ Succeed codes m ∧ P) (tpmClose tpm >>= fun _ => Pure.pure { status := status })
      fun (r : EnrollResult) _ => r.posted.isSome ↔ Succeed codes callsToPost :=
  .bind (.frame _) fun _ => .pure fun _ h => iff_of_false Bool.false_ne_true fun hs => h.1 (hs.of_le hm)

/-- The enrollment is posted exactly if the calls up to the name succeed. -/
theorem rootHeraldEnroll_posts (url : CString) (reply : EnrollReply) (activateCode : Int) (codes : List Bool) :
    Triple (Reached codes 0) (rootHeraldEnroll (some url) true reply activateCode) fun r _ =>
      r.posted.isSome ↔ Succeed codes callsToPost := by
  unfold rootHeraldEnroll
  refine .ite (fun hargs => absurd hargs (by simp)) fun _ => .bind tpmOpen_tried fun tpm => ?_
  cases tpm with
  | none => exact .pure fun _ h => iff_of_false Bool.false_ne_true fun hs => h.1 (hs.of_le (by decide))
  | some tpm =>
    refine .assume (c := tpm = {}) (fun _ h => h.2 tpm rfl) fun htpm => ?_
    subst htpm
    refine .bind (tpmReadEkPub_tried.pre fun _ h => h.1) fun (ekPub, tpm) => ?_
    cases ekPub with
    | none => exact posted_failed (m := 3) .noTpm (by decide)
    | some ekPub =>
      refine .assume (c := ∃ ek, tpm = { ekHandle := some ek }) (fun _ h => h.2 rfl) fun ⟨ek, htpm⟩ => ?_
      subst htpm
      refine .bind (((tpmCreateAk_tried (some ek)).and (tpmCreateAk_fresh 0 _)).pre fun _ h => ⟨h.1, Nat.zero_le _⟩)
        fun (created, tpm) => ?_
      cases created with
      | false => exact (posted_failed (P := True) .enrollmentFailed (by decide)).pre fun _ h => ⟨h.1.1, trivial⟩
      | true =>
        refine .assume (c := ∃ srk ak, tpm = ⟨some ek, some srk, some ak⟩) (fun _ h => h.1.2 rfl) fun ⟨srk, ak, htpm⟩ => ?_
        subst htpm
        refine .bind ((tpmGetAkPub_tried rfl).pre fun w h => ⟨h.1.1, ?_⟩) fun akPub => ?_
        · obtain ⟨-, handle, key, hhandle, hlookup, -⟩ := h.2.2 rfl
          cases hhandle
          exact Option.isSome_of_eq_some hlookup
        cases akPub with
        | none => exact (posted_failed (m := 8) (P := True) .enrollmentFailed (by decide)).pre fun _ h => ⟨h.1, trivial⟩
        | some akPub =>
          refine .bind ((tpmGetAkName_tried rfl).pre fun _ h => h) fun akName => ?_
          cases akName with
          | none => exact (posted_failed (m := 9) (P := True) .enrollmentFailed (by decide)).pre fun _ h => ⟨h, trivial⟩
          | some akName =>
            refine .assume (c := Succeed codes callsToPost) (fun _ h => h.succeed) fun hs => ?_
            refine ((postEnrollment_posted _ akPub reply activateCode).pre fun _ _ => trivial).post fun r _ h => ?_
            rw [h]
            exact iff_of_true rfl hs

end Posted

section Registrar

/-- A string in an object that was posted. -/
def postedString (body name : Bytes) : Option Bytes :=
  match parse body with
  | some (.object members) =>
    match members.lookup name with
    | some (.string s) => some s
    | _ => none
  | _ => none

def postedBytes (body name : Bytes) : Option Bytes := (postedString body name).bind Base64.decode

def challengeNames : List Bytes := [text "deviceId", text "credentialBlob", text "encryptedSecret"]

/-- What a server takes a device in with: the id it gives it, and the secret it hides for the endorsement key and the
name of the attestation key. The sizes are those of TPM2B_ID_OBJECT and TPM2B_ENCRYPTED_SECRET. -/
structure Registrar where
  deviceId : Bytes
  secret : Bytes
  makeCredential : (ekPub akName : Bytes) → Bytes × Bytes
  deviceId_ne : deviceId ≠ []
  deviceId_le : deviceId.length ≤ 63
  deviceId_plain : ∀ c ∈ deviceId, isPlain c
  deviceId_notName : deviceId ∉ challengeNames
  blob_ne : ∀ ekPub akName, (makeCredential ekPub akName).1 ≠ []
  blob_le : ∀ ekPub akName, (makeCredential ekPub akName).1.length ≤ idObjectCapacity
  encrypted_ne : ∀ ekPub akName, (makeCredential ekPub akName).2 ≠ []
  encrypted_le : ∀ ekPub akName, (makeCredential ekPub akName).2.length ≤ encryptedSecretCapacity

namespace Registrar
variable (reg : Registrar)

def replyMembers (ekPub akName : Bytes) : Members := [
  (text "deviceId", reg.deviceId),
  (text "credentialBlob", Base64.encode (reg.makeCredential ekPub akName).1),
  (text "encryptedSecret", Base64.encode (reg.makeCredential ekPub akName).2)]

/-- A challenge for the keys of an enrollment. -/
def takeIn (enroll : Post) : Int × Bytes :=
  match postedBytes enroll.body (text "ekPublicKey"), postedBytes enroll.body (text "akName") with
  | some ekPub, some akName => (201, stringsText (reg.replyMembers ekPub akName))
  | _, _ => (400, [])

/-- The activation brings the secret back, for the id and the attestation key of the enrollment. -/
def Proves (activate enroll : Post) : Prop :=
  postedString activate.body (text "deviceId") = some reg.deviceId ∧
    postedBytes activate.body (text "decryptedSecret") = some reg.secret ∧
    postedBytes activate.body (text "akPublicKey") = postedBytes enroll.body (text "akPublicArea")

instance (activate enroll : Post) : Decidable (reg.Proves activate enroll) := inferInstanceAs (Decidable (_ ∧ _ ∧ _))

/-- The server at an address. -/
def server (url : Bytes) : Server
  | [enroll] => if enroll.url = url ++ enrollPath then reg.takeIn enroll else (404, [])
  | [activate, enroll] =>
    if activate.url = url ++ activatePath then if reg.Proves activate enroll then (200, []) else (403, [])
    else (404, [])
  | _ => (400, [])

/-- The server has activated the device. -/
def Activated (url : Bytes) (posts : List Post) : Prop :=
  ∃ activate enroll, posts = [activate, enroll] ∧ (reg.server url posts).1 = 200

/-- The challenge for the endorsement key of the TPM and this attestation key. -/
def challenge (out : TpmBytes) (ak : Key) : Bytes × Bytes :=
  reg.makeCredential (out.publicArea endorsementKey) (out.name ak)

/-- What the TPM finds in it. -/
def found (out : TpmBytes) (ak : Key) : Bytes := out.secret (reg.challenge out ak).1 (reg.challenge out ak).2

def OpenedBy (out : TpmBytes) (ak : Key) : Prop := reg.found out ak = reg.secret

end Registrar
end Registrar

section Reading
variable (reg : Registrar) (out : TpmBytes)

private theorem lookup_strings (members : Members) (name : Bytes) :
    (members.map fun m => (m.1, Json.string m.2)).lookup name = (members.lookup name).map Json.string := by
  induction members with
  | nil => rfl
  | cons m members ih =>
    rw [List.map_cons, List.lookup_cons, List.lookup_cons, ih]
    cases name == m.1 with
    | true => rfl
    | false => rfl

theorem postedString_strings {body : Bytes} {members : Members} (h : parse body = some (stringsValue members))
    (name : Bytes) : postedString body name = members.lookup name := by
  rw [postedString, h, stringsValue]
  dsimp only
  rw [lookup_strings]
  cases members.lookup name with
  | none => rfl
  | some value => rfl

private theorem distinct_names : (text "ekPublicKey" == text "ekCertPem") = false ∧
    (text "akPublicArea" == text "ekCertPem") = false ∧ (text "akPublicArea" == text "ekPublicKey") = false ∧
    (text "akName" == text "ekCertPem") = false ∧ (text "akName" == text "ekPublicKey") = false ∧
    (text "akName" == text "akPublicArea") = false ∧ (text "decryptedSecret" == text "deviceId") = false ∧
    (text "akPublicKey" == text "deviceId") = false ∧ (text "akPublicKey" == text "decryptedSecret") = false := by
  decide +kernel

/-- The server reads the keys of an enrollment. -/
theorem enroll_read (url : Bytes) (ak : Key) :
    let body := ((Message.enroll ak).post out url).body
    postedBytes body (text "ekPublicKey") = some (out.publicArea endorsementKey) ∧
      postedBytes body (text "akPublicArea") = some (out.publicArea ak) ∧
      postedBytes body (text "akName") = some (out.name ak) := by
  intro body
  obtain ⟨h₁, h₂, h₃, h₄, h₅, h₆, -⟩ := distinct_names
  have hparse : parse body = some (stringsValue (enrollMembers out endorsementKey ak ak)) :=
    parse_enrollBody out endorsementKey ak ak
  simp only [postedBytes, postedString_strings hparse, enrollMembers, List.lookup_cons, h₁, h₂, h₃, h₄, h₅, h₆,
    beq_self_eq_true, Option.bind_some, Base64.decode_encode, and_self]

/-- And what an activation brings. -/
theorem activate_read (url : Bytes) (ak : Key) {deviceId : Bytes} (hid : ∀ c ∈ deviceId, isPlain c) (secret : Bytes) :
    let body := ((Message.activate ak deviceId secret).post out url).body
    postedString body (text "deviceId") = some deviceId ∧ postedBytes body (text "decryptedSecret") = some secret ∧
      postedBytes body (text "akPublicKey") = some (out.publicArea ak) := by
  intro body
  obtain ⟨-, -, -, -, -, -, h₇, h₈, h₉⟩ := distinct_names
  have hparse : parse body = some (stringsValue (activateMembers out ak deviceId secret)) :=
    (parse_activateBody out ak deviceId secret).trans (if_pos (isText_of_plain hid))
  simp only [postedBytes, postedString_strings hparse, activateMembers, List.lookup_cons, h₇, h₈, h₉, beq_self_eq_true,
    Option.bind_some, Base64.decode_encode, and_self]

variable (ekPub akName : Bytes)

private theorem isName : ∀ name ∈ challengeNames, IsName name := by decide +kernel

private theorem name_lengths : (text "deviceId").length = 8 ∧ (text "credentialBlob").length = 14 ∧
    (text "encryptedSecret").length = 15 := by decide

theorem replyMembers_plain : PlainMembers (reg.replyMembers ekPub akName) := by
  have hnames : ∀ name ∈ challengeNames, ∀ c ∈ name, isPlain c := fun name h => (isName name h).plain
  simp only [challengeNames, List.forall_mem_cons, List.not_mem_nil, false_imp_iff, implies_true, and_true] at hnames
  simp only [PlainMembers, Registrar.replyMembers, List.forall_mem_cons, List.not_mem_nil, false_imp_iff, implies_true,
    and_true]
  exact ⟨⟨hnames.1, reg.deviceId_plain⟩, ⟨hnames.2.1, base64_plain _⟩, hnames.2.2, base64_plain _⟩

theorem replyText_length : (stringsText (reg.replyMembers ekPub akName)).length < responseSize := by
  have hid := Entry.string_length (text "deviceId") reg.deviceId
  have hblob : (reg.makeCredential ekPub akName).1.length ≤ 132 := reg.blob_le ekPub akName
  have hencrypted : (reg.makeCredential ekPub akName).2.length ≤ 512 := reg.encrypted_le ekPub akName
  have hle := reg.deviceId_le
  obtain ⟨hidLength, hblobLength, hsecretLength⟩ := name_lengths
  have hlength := objectText_length (.string (text "deviceId") reg.deviceId)
    [.string (text "credentialBlob") (Base64.encode (reg.makeCredential ekPub akName).1),
      .string (text "encryptedSecret") (Base64.encode (reg.makeCredential ekPub akName).2)]
  simp only [List.map_cons, List.map_nil, List.sum_cons, List.sum_nil, base64_string_length] at hlength
  change (objectText _).length < _
  simp only [Registrar.replyMembers, List.map_cons, List.map_nil]
  rw [hlength]
  unfold responseSize
  omega

/-- Enroll finds in the reply what the server put there. -/
theorem enrollReply_takeIn : enrollReply 201 (stringsText (reg.replyMembers ekPub akName)) =
    ⟨201, reg.deviceId, Base64.encode (reg.makeCredential ekPub akName).1,
      Base64.encode (reg.makeCredential ekPub akName).2⟩ := by
  have hplain := replyMembers_plain reg ekPub akName
  have hroom := replyText_length reg ekPub akName
  have hblob : (reg.makeCredential ekPub akName).1.length ≤ 132 := reg.blob_le ekPub akName
  have hencrypted : (reg.makeCredential ekPub akName).2.length ≤ 512 := reg.encrypted_le ekPub akName
  obtain ⟨hidLength, hblobLength, hsecretLength⟩ := name_lengths
  have hidBlob : text "deviceId" ≠ text "credentialBlob" := ne_of_apply_ne List.length (by omega)
  have hidSecret : text "deviceId" ≠ text "encryptedSecret" := ne_of_apply_ne List.length (by omega)
  have hblobSecret : text "credentialBlob" ≠ text "encryptedSecret" := ne_of_apply_ne List.length (by omega)
  have hnotName := reg.deviceId_notName
  simp only [challengeNames, List.mem_cons, List.not_mem_nil, or_false, not_or] at hnotName
  -- base64 has a multiple of four characters, the name of the last member has not
  have hencoded : Base64.encode (reg.makeCredential ekPub akName).1 ≠ text "encryptedSecret" := fun h => by
    have hlength := congrArg List.length h
    rw [Base64.length_encode, hsecretLength] at hlength
    omega
  have hid : (jsonGet (responseText (stringsText (reg.replyMembers ekPub akName))) (text "deviceId") 64).chars =
      reg.deviceId :=
    jsonGet_stringsText [] rfl hplain hroom (isName _ (by simp [challengeNames])) (List.forall_mem_nil _)
      (Nat.lt_succ_of_le reg.deviceId_le)
  have hblobRead : (jsonGet (responseText (stringsText (reg.replyMembers ekPub akName))) (text "credentialBlob") 4096).chars =
      Base64.encode (reg.makeCredential ekPub akName).1 := by
    refine jsonGet_stringsText [(text "deviceId", reg.deviceId)] rfl hplain hroom (isName _ (by simp [challengeNames])) ?_ ?_
    · exact List.forall_mem_singleton.mpr ⟨hidBlob, hnotName.2.1⟩
    · rw [Base64.length_encode]
      omega
  have hencryptedRead : (jsonGet (responseText (stringsText (reg.replyMembers ekPub akName))) (text "encryptedSecret")
      4096).chars = Base64.encode (reg.makeCredential ekPub akName).2 := by
    refine jsonGet_stringsText [(text "deviceId", reg.deviceId), (text "credentialBlob", _)] rfl hplain hroom
      (isName _ (by simp [challengeNames])) ?_ ?_
    · exact List.forall_mem_cons.mpr ⟨⟨hidSecret, hnotName.2.2⟩, List.forall_mem_singleton.mpr ⟨hblobSecret, hencoded⟩⟩
    · rw [Base64.length_encode]
      omega
  unfold enrollReply
  dsimp only
  rw [hid, hblobRead, hencryptedRead]

end Reading

section Outcome
variable (reg : Registrar) (out : TpmBytes)

/-- The address fits the buffer. -/
def Reaches (serverUrl path : Bytes) : Prop := (serverUrl ++ path).length < urlSize

theorem endpoint_eq_iff {serverUrl path : Bytes} : endpoint serverUrl path = serverUrl ++ path ↔ Reaches serverUrl path := by
  rw [endpoint, List.take_eq_self_iff, Reaches]
  unfold urlSize
  omega

theorem Reaches.enroll {serverUrl : Bytes} (h : Reaches serverUrl activatePath) : Reaches serverUrl enrollPath := by
  have hlonger : enrollPath.length ≤ activatePath.length := by decide
  rw [Reaches, List.length_append] at h ⊢
  omega

theorem decoded_encode {bs : Bytes} (h : bs.length ≤ decodedSize) :
    decodedLen (Base64.encode bs) = bs.length ∧ decoded (Base64.encode bs) = bs := by
  have hdecode : base64Decode (Base64.encode bs) (List.replicate decodedSize 0) = (bs.length, bs ++ _) :=
    base64Decode_valid (Base64.decode_encode bs) (by simpa using h)
  have hlen : decodedLen (Base64.encode bs) = bs.length := congrArg Prod.fst hdecode
  rw [decoded, hlen, hdecode]
  exact ⟨rfl, List.take_left⟩

/-- The server's answer to an enrollment that reaches it. -/
theorem server_enroll {serverUrl : Bytes} (h : Reaches serverUrl enrollPath) (ak : Key) :
    reg.server serverUrl [(Message.enroll ak).post out serverUrl] =
      (201, stringsText (reg.replyMembers (out.publicArea endorsementKey) (out.name ak))) := by
  obtain ⟨hek, -, hname⟩ := enroll_read out serverUrl ak
  have htaken : reg.server serverUrl [(Message.enroll ak).post out serverUrl] =
      reg.takeIn ((Message.enroll ak).post out serverUrl) := if_pos (endpoint_eq_iff.2 h)
  rw [htaken, Registrar.takeIn, hek, hname]

/-- The reply that the device makes of it. -/
def challengeReply (ak : Key) : EnrollReply :=
  ⟨201, reg.deviceId, Base64.encode (reg.challenge out ak).1, Base64.encode (reg.challenge out ak).2⟩

theorem challenge_le (ak : Key) : (reg.challenge out ak).1.length ≤ idObjectCapacity ∧
    (reg.challenge out ak).2.length ≤ encryptedSecretCapacity :=
  ⟨reg.blob_le _ _, reg.encrypted_le _ _⟩

theorem challengeReply_answered (ak : Key) :
    answered out ak (challengeReply reg out ak) = .activate ak reg.deviceId (reg.found out ak) := by
  obtain ⟨hblob, hencrypted⟩ := challenge_le reg out ak
  rw [answered, challengeReply, (decoded_encode (hblob.trans (by decide))).2, (decoded_encode (hencrypted.trans (by decide))).2]
  rfl

/-- The activation is answered with 200 exactly if it reaches the server with the secret. -/
theorem server_activate (serverUrl : Bytes) (ak : Key) :
    (reg.server serverUrl [(Message.activate ak reg.deviceId (reg.found out ak)).post out serverUrl,
      (Message.enroll ak).post out serverUrl]).1 = 200 ↔ Reaches serverUrl activatePath ∧ reg.OpenedBy out ak := by
  obtain ⟨-, hpublic, -⟩ := enroll_read out serverUrl ak
  obtain ⟨hid, hsecret, hkey⟩ := activate_read out serverUrl ak reg.deviceId_plain (reg.found out ak)
  have hproves : reg.Proves ((Message.activate ak reg.deviceId (reg.found out ak)).post out serverUrl)
      ((Message.enroll ak).post out serverUrl) ↔ reg.OpenedBy out ak := by
    rw [Registrar.Proves, hid, hsecret, hkey, hpublic]
    exact ⟨fun h => Option.some.inj h.2.1, fun h => ⟨rfl, congrArg some h, rfl⟩⟩
  rw [← endpoint_eq_iff, ← hproves]
  change (ite _ (ite _ _ _) _ : Int × Bytes).1 = 200 ↔ _
  split_ifs with hurl hproved
  · exact iff_of_true rfl ⟨hurl, hproved⟩
  · exact iff_of_false (by decide) fun h => hproved h.2
  · exact iff_of_false (by decide) fun h => hurl h.1

theorem challengeReply_accepts (ak : Key) : (challengeReply reg out ak).Accepts ∧ (challengeReply reg out ak).Challenges := by
  have hencode {bs : Bytes} (h : bs ≠ []) : Base64.encode bs ≠ [] := fun hnil => by
    have hdecode := Base64.decode_encode bs
    rw [hnil] at hdecode
    exact h (Option.some.inj hdecode).symm
  exact ⟨⟨.inl rfl, reg.deviceId_ne⟩, hencode (reg.blob_ne _ _), hencode (reg.encrypted_ne _ _)⟩

theorem challengeReply_activates (ak : Key) (codes : List Bool) :
    (challengeReply reg out ak).Activates codes ↔ Succeed codes callsToActivate := by
  obtain ⟨hblob, hencrypted⟩ := challenge_le reg out ak
  refine and_iff_right ⟨?_, ?_⟩
  · exact ((decoded_encode (hblob.trans (by decide))).1.trans_le hblob)
  · exact ((decoded_encode (hencrypted.trans (by decide))).1.trans_le hencrypted)

/-- How an enrollment with such a server ends, for the device and for the server. -/
structure Concluded (serverUrl : Bytes) (codes : List Bool) (r : EnrollResult) (posts : List Post) : Prop where
  ok_iff : r.status = .ok ↔ Reaches serverUrl enrollPath ∧ Succeed codes callsToPost ∧
    (Succeed codes callsToActivate → Reaches serverUrl activatePath ∧ ∃ ak ∈ r.posted, reg.OpenedBy out ak)
  activated_iff : reg.Activated serverUrl posts ↔
    Reaches serverUrl activatePath ∧ Succeed codes callsToActivate ∧ ∃ ak ∈ r.posted, reg.OpenedBy out ak
  agrees : r.activation = some 200 ↔ reg.Activated serverUrl posts
  deviceId : r.status = .ok → r.info.deviceId = reg.deviceId

variable {reg out} {serverUrl : Bytes} {codes : List Bool} {r : EnrollResult} {posts : List Post}

/-- Without an activation the server hears at most the enrollment. -/
theorem not_activated (reg : Registrar) (out : TpmBytes) (serverUrl : Bytes) (reply : EnrollReply)
    (h : r.activation = none) :
    ¬ reg.Activated serverUrl ((said out reply r).map (Message.post out serverUrl)) := by
  rintro ⟨activate, enroll, hposts, -⟩
  unfold said at hposts
  split at hposts
  · cases hposts
  · rw [h] at hposts
    cases hposts

private theorem Concluded.refused (reply : EnrollReply) (hstatus : r.status ≠ .ok) (hactivation : r.activation = none)
    (hnot : ¬ (Reaches serverUrl enrollPath ∧ Succeed codes callsToPost)) :
    Concluded reg out serverUrl codes r ((said out reply r).map (Message.post out serverUrl)) := by
  have hunreached := not_activated reg out serverUrl reply hactivation
  refine ⟨iff_of_false hstatus fun h => hnot ⟨h.1, h.2.1⟩, iff_of_false hunreached fun h => hnot ⟨h.1.enroll, ?_⟩, ?_,
    fun h => absurd h hstatus⟩
  · exact h.2.1.of_le (by decide)
  · exact iff_of_false (fun h => by cases hactivation.symm.trans h) hunreached

/-- An enrollment that the server answers with its challenge. -/
private theorem concluded_challenged {ak : Key} {activateCode : Int} (hreaches : Reaches serverUrl enrollPath)
    (hsucceed : Succeed codes callsToPost) (hposted : r.posted = some ak)
    (houtcome : PostOutcome codes (challengeReply reg out ak) activateCode r)
    (hcode : ∀ code ∈ r.activation, code = activateCode ∧
      (reg.server serverUrl ((said out (challengeReply reg out ak) r).map (Message.post out serverUrl))).1 = code) :
    Concluded reg out serverUrl codes r ((said out (challengeReply reg out ak) r).map (Message.post out serverUrl)) := by
  obtain ⟨haccepts, hchallenges⟩ := challengeReply_accepts reg out ak
  have hactivates := challengeReply_activates reg out ak codes
  have hactivation := houtcome.activation
  have hok := houtcome.ok_iff
  simp only [haccepts, hchallenges, hactivates, true_and, forall_const] at hactivation hok
  have hdeviceId : r.status = .ok → r.info.deviceId = reg.deviceId := houtcome.deviceId
  have hopened : (∃ ak ∈ r.posted, reg.OpenedBy out ak) ↔ reg.OpenedBy out ak := by simp [hposted]
  by_cases hall : Succeed codes callsToActivate
  · rw [if_pos hall] at hactivation
    have hposts : (said out (challengeReply reg out ak) r).map (Message.post out serverUrl) =
        [(Message.activate ak reg.deviceId (reg.found out ak)).post out serverUrl, (Message.enroll ak).post out serverUrl] := by
      rw [said_posted hposted, hactivation, challengeReply_answered]
      rfl
    obtain ⟨-, hserver⟩ := hcode activateCode hactivation
    rw [hposts] at hserver ⊢
    have h200 : activateCode = 200 ↔ Reaches serverUrl activatePath ∧ reg.OpenedBy out ak := by
      rw [← hserver]
      exact server_activate reg out serverUrl ak
    have hactivated : reg.Activated serverUrl _ ↔ activateCode = 200 :=
      ⟨fun ⟨_, _, _, h⟩ => hserver.symm.trans h, fun h => ⟨_, _, rfl, hserver.trans h⟩⟩
    refine ⟨?_, ?_, ?_, hdeviceId⟩
    · rw [hok, h200, hopened]
      exact ⟨fun h => ⟨hreaches, hsucceed, h⟩, fun h => h.2.2⟩
    · rw [hactivated, h200, hopened]
      exact ⟨fun h => ⟨h.1, hall, h.2⟩, fun h => ⟨h.1, h.2.2⟩⟩
    · rw [hactivated, hactivation, Option.some.injEq]
  · rw [if_neg hall] at hactivation
    have hunreached := not_activated reg out serverUrl (challengeReply reg out ak) hactivation
    refine ⟨?_, iff_of_false hunreached fun h => hall h.2.1, ?_, hdeviceId⟩
    · exact iff_of_true (hok.mpr fun h => absurd h hall) ⟨hreaches, hsucceed, fun h => absurd h hall⟩
    · exact iff_of_false (fun h => by cases hactivation.symm.trans h) hunreached

variable (reg out)

/-- Against a server that keeps to the protocol, whatever its challenge is, whatever the TPM hands out and whichever
calls of the library fail: the server has activated the device exactly if the device was told so, which is exactly if
both addresses fit the buffer, all calls up to ActivateCredential succeed and the TPM finds the secret in the challenge
for the key of this call; and Enroll returns OK also where a call behind the enrollment fails, which leaves the device
unactivated. -/
theorem enroll_with_registrar (serverUrl : CString) (w : World) :
    ∃ r, ((rootHeraldEnrollOnline out (reg.server serverUrl.chars) (some serverUrl) true).run ⟨w, []⟩).1 = .ok r ∧
      Concluded reg out serverUrl.chars w.codes r
        ((rootHeraldEnrollOnline out (reg.server serverUrl.chars) (some serverUrl) true).run ⟨w, []⟩).2.posts := by
  obtain ⟨reply, activateCode, hanswered, hrun⟩ :=
    rootHeraldEnrollOnline_follows out (reg.server serverUrl.chars) serverUrl true ⟨w, []⟩
  change Answered out _ _ reply activateCode ((rootHeraldEnroll (some serverUrl) true reply activateCode).run w).1 []
    at hanswered
  obtain ⟨hreply, hcode⟩ := hanswered
  rw [List.append_nil] at hrun
  change (rootHeraldEnrollOnline out (reg.server serverUrl.chars) (some serverUrl) true).run ⟨w, []⟩ =
    (.ok ((rootHeraldEnroll (some serverUrl) true reply activateCode).run w).1, ⟨_, List.map _
      (said out reply ((rootHeraldEnroll (some serverUrl) true reply activateCode).run w).1)⟩) at hrun
  rw [hrun]
  refine ⟨_, rfl, ?_⟩
  have hposts := rootHeraldEnroll_posts serverUrl reply activateCode w.codes w ⟨fun i hi => absurd hi (Nat.not_lt_zero i), rfl⟩
  have houtcome := rootHeraldEnroll_outcome (some serverUrl) true reply activateCode w.tpm w.codes rfl
  change (((rootHeraldEnroll (some serverUrl) true reply activateCode).run w).1.posted.isSome ↔ _) at hposts
  change _ ∧ PostOutcome _ _ _ ((rootHeraldEnroll (some serverUrl) true reply activateCode).run w).1 ∨ _ at houtcome
  generalize ((rootHeraldEnroll (some serverUrl) true reply activateCode).run w).1 = r at *
  rcases houtcome with ⟨⟨-, -, hsucceed⟩, houtcome⟩ | ⟨hnot, hstatus, hactivation⟩
  swap
  · exact .refused reply hstatus hactivation fun h => hnot ⟨rfl, rfl, h.2⟩
  obtain ⟨ak, hposted⟩ := Option.isSome_iff_exists.mp (hposts.mpr hsucceed)
  obtain ⟨received, hserver, hread⟩ := hreply ak hposted
  by_cases hreaches : Reaches serverUrl.chars enrollPath
  · rw [server_enroll reg out hreaches ak] at hserver
    obtain ⟨hhttp, rfl⟩ := Prod.mk.inj hserver
    rw [← hhttp, enrollReply_takeIn] at hread
    have hchallenge : reply = challengeReply reg out ak := hread
    subst hchallenge
    rw [List.append_nil] at hcode
    exact concluded_challenged hreaches hsucceed hposted houtcome hcode
  · -- the address was cut, so that the server knows no such path
    have hlost : reg.server serverUrl.chars [(Message.enroll ak).post out serverUrl.chars] = (404, []) :=
      if_neg fun h => hreaches (endpoint_eq_iff.1 h)
    have hhttp : (404 : Int) = reply.httpCode := (Prod.mk.inj (hlost.symm.trans hserver)).1
    have hrefused : ¬ reply.Accepts := fun h => by
      rw [EnrollReply.Accepts, ← hhttp] at h
      exact absurd h.1 (by decide)
    refine .refused reply (fun h => hrefused (houtcome.ok_iff.mp h).1) ?_ fun h => hreaches h.1
    rw [houtcome.activation, if_neg fun h => hrefused h.1]

end Outcome
end RootHerald.Linux
