import RootHerald.Linux.AttestationKey
import RootHerald.Linux.EnrollBodies
import RootHerald.Linux.NativeHost

/-! Enroll over HTTP: the same call with the bodies it posts and a server that answers each of them, and the messages
these bodies stand for. -/
namespace RootHerald.Linux
open Lib Json

section Source

structure Post where
  url : Bytes
  body : Bytes
  deriving DecidableEq

/-- The HTTP code and the bytes received for the last of the posts so far, which are listed newest first. -/
abbrev Server := List Post → Int × Bytes

structure Exchange where
  world : World
  posts : List Post := []

abbrev Online := StateM Exchange

def offline {α : Type} (x : Esys α) : Online α := fun s => ((x s.world).1, ⟨(x s.world).2, s.posts⟩)

def httpPostJson (server : Server) (url body : Bytes) : Online (Int × Bytes) := fun s =>
  (server (⟨url, body⟩ :: s.posts), ⟨s.world, ⟨url, body⟩ :: s.posts⟩)

def urlSize : Nat := 2048

/-- snprintf cuts an address to its buffer. -/
def endpoint (serverUrl path : Bytes) : Bytes := (serverUrl ++ path).take (urlSize - 1)

def enrollPath : Bytes := text "/api/v1/devices/enroll"
def activatePath : Bytes := text "/api/v1/devices/activate"

/-- What base64_decode leaves in a buffer, as far as it says. -/
def decoded (src : Bytes) : Bytes := (base64Decode src (List.replicate decodedSize 0)).2.take (decodedLen src)

/-- Steps 8 to 12, with the reply to the enrollment. -/
def answerReply (out : TpmBytes) (server : Server) (serverUrl : Bytes) (tpm : TpmContext) (ak : Key)
    (reply : EnrollReply) : Online (Checked EnrollResult) := do
  if reply.httpCode ≠ 201 ∧ reply.httpCode ≠ 200 then
    offline (tpmClose tpm)
    return .ok { status := .enrollmentFailed, posted := some ak }
  let partialInfo : EnrollmentInfo := ⟨reply.deviceId, reply.credentialBlob, reply.encryptedSecret⟩
  if reply.deviceId = [] ∨ reply.credentialBlob = [] ∨ reply.encryptedSecret = [] then
    offline (tpmClose tpm)
    if reply.deviceId ≠ [] then return .ok { status := .ok, info := partialInfo, posted := some ak }
    return .ok { status := .enrollmentFailed, posted := some ak }
  if ← offline (tpmActivateCredential tpm (decodedLen reply.credentialBlob) (decodedLen reply.encryptedSecret)) then
    let secret := out.secret (decoded reply.credentialBlob) (decoded reply.encryptedSecret)
    match activateBody out ak reply.deviceId secret with
    | .error fault => return .error fault
    | .ok body =>
      let (httpCode, _) ← httpPostJson server (endpoint serverUrl activatePath) body
      offline (tpmClose tpm)
      if httpCode ≠ 200 then
        return .ok { status := .enrollmentFailed, posted := some ak, activation := some httpCode }
      return .ok {
        status := .ok, info := { deviceId := reply.deviceId }, posted := some ak, activation := some httpCode }
  else
    offline (tpmClose tpm)
    return .ok { status := .ok, info := partialInfo, posted := some ak }

/-- Steps 6 to 12, for the keys whose public areas and name were read. -/
def postEnrollmentOnline (out : TpmBytes) (server : Server) (serverUrl : Bytes) (tpm : TpmContext)
    (ek ak named : Key) : Online (Checked EnrollResult) := do
  match enrollBody out ek ak named with
  | .error fault => return .error fault
  | .ok body =>
    let (httpCode, received) ← httpPostJson server (endpoint serverUrl enrollPath) body
    answerReply out server serverUrl tpm ak (enrollReply httpCode received)

def rootHeraldEnrollOnline (out : TpmBytes) (server : Server) (serverUrl : Option CString) (outInfo : Bool) :
    Online (Checked EnrollResult) := do
  match serverUrl with
  | none => return .ok { status := .invalidParam }
  | some serverUrl =>
    if ¬ outInfo then return .ok { status := .invalidParam }
    match ← offline tpmOpen with
    | none => return .ok { status := .noTpm }
    | some tpm =>
      let (ekPub, tpm) ← offline (tpmReadEkPub tpm)
      match ekPub with
      | none =>
        offline (tpmClose tpm)
        return .ok { status := .noTpm }
      | some ek =>
        let (created, tpm) ← offline (tpmCreateAk tpm)
        if ¬ created then
          offline (tpmClose tpm)
          return .ok { status := .enrollmentFailed }
        match ← offline (tpmGetAkPub tpm) with
        | none =>
          offline (tpmClose tpm)
          return .ok { status := .enrollmentFailed }
        | some ak =>
          match ← offline (tpmGetAkName tpm) with
          | none =>
            offline (tpmClose tpm)
            return .ok { status := .enrollmentFailed }
          | some named => postEnrollmentOnline out server serverUrl.chars tpm ek ak named

end Source

section Messages

/-- The endorsement key. -/
def endorsementKey : Key := .primary .endorsement .ekRsa

/-- What the device says to the server. -/
inductive Message where
  | enroll (ak : Key)
  | activate (ak : Key) (deviceId secret : Bytes)

def Message.path : Message → Bytes
  | .enroll _ => enrollPath
  | .activate .. => activatePath

def Message.members (out : TpmBytes) : Message → Members
  | .enroll ak => enrollMembers out endorsementKey ak ak
  | .activate ak deviceId secret => activateMembers out ak deviceId secret

/-- The body of an activation is only JSON for a device id that is text. -/
def Message.Readable : Message → Prop
  | .enroll _ => True
  | .activate _ deviceId _ => Windows.isText deviceId = true

instance : (m : Message) → Decidable m.Readable
  | .enroll _ => inferInstanceAs (Decidable True)
  | .activate _ deviceId _ => inferInstanceAs (Decidable (Windows.isText deviceId = true))

def Message.post (out : TpmBytes) (serverUrl : Bytes) (m : Message) : Post :=
  ⟨endpoint serverUrl m.path, stringsText (m.members out)⟩

theorem Message.parse_post (out : TpmBytes) (serverUrl : Bytes) (m : Message) :
    parse (m.post out serverUrl).body = if m.Readable then some (stringsValue (m.members out)) else none := by
  cases m with
  | enroll ak => exact (parse_enrollBody out endorsementKey ak ak).trans (if_pos trivial).symm
  | activate ak deviceId secret => exact parse_activateBody out ak deviceId secret

/-- The answer to a challenge. -/
def answered (out : TpmBytes) (ak : Key) (reply : EnrollReply) : Message :=
  .activate ak reply.deviceId (out.secret (decoded reply.credentialBlob) (decoded reply.encryptedSecret))

/-- What was said in a call with this result and this reply to the enrollment, newest first. -/
def said (out : TpmBytes) (reply : EnrollReply) (r : EnrollResult) : List Message :=
  match r.posted with
  | none => []
  | some ak => (if r.activation.isSome then [answered out ak reply] else []) ++ [.enroll ak]

end Messages

section Simulation
variable (out : TpmBytes) (server : Server) (serverUrl : Bytes)

/-- The server answered the messages of a call with this reply and this code. -/
structure Answered (reply : EnrollReply) (activateCode : Int) (r : EnrollResult) (posts : List Post) : Prop where
  reply_eq : ∀ ak ∈ r.posted, ∃ received, server ((Message.enroll ak).post out serverUrl :: posts) =
    (reply.httpCode, received) ∧ reply = enrollReply reply.httpCode received
  code_eq : ∀ code ∈ r.activation, code = activateCode ∧
    (server ((said out reply r).map (Message.post out serverUrl) ++ posts)).1 = code

/-- From this state the call over HTTP does what the call does with the replies the server gives, and posts what is
said. -/
def Follows (s : Exchange) (x : Online (Checked EnrollResult)) (y : EnrollReply → Int → Esys EnrollResult) : Prop :=
  ∃ reply activateCode, Answered out server serverUrl reply activateCode (y reply activateCode s.world).1 s.posts ∧
    x s = (.ok (y reply activateCode s.world).1, ⟨(y reply activateCode s.world).2,
      (said out reply (y reply activateCode s.world).1).map (Message.post out serverUrl) ++ s.posts⟩)

/-- So it does behind the enrollment, which leaves one message. -/
def Finishes (ak : Key) (activate : Post) (s : Exchange) (x : Online (Checked EnrollResult)) (y : Esys EnrollResult) :
    Prop :=
  ((y s.world).1.posted = some ak ∧ ∀ code ∈ (y s.world).1.activation, (server (activate :: s.posts)).1 = code) ∧
    x s = (.ok (y s.world).1,
      ⟨(y s.world).2, (if (y s.world).1.activation.isSome then [activate] else []) ++ s.posts⟩)

variable {out server serverUrl} {s : Exchange} {ak : Key} {activate : Post}

/-- A call that ends without a message. -/
theorem Follows.silent {r : EnrollResult} (hposted : r.posted = none) (hactivation : r.activation = none) :
    Follows out server serverUrl s (Pure.pure (.ok r)) fun _ _ => Pure.pure r := by
  refine ⟨⟨0, [], [], []⟩, 0, ⟨fun ak hak => ?_, fun code hcode => ?_⟩, ?_⟩
  · exact absurd (hposted.symm.trans hak) (Option.some_ne_none ak).symm
  · exact absurd (hactivation.symm.trans hcode) (Option.some_ne_none code).symm
  · change (_, s) = (_, (⟨s.world, (said out _ r).map _ ++ s.posts⟩ : Exchange))
    rw [said, hposted]
    rfl

theorem Follows.bind {α : Type} {z : Esys α} {f : α → Online (Checked EnrollResult)}
    {g : EnrollReply → Int → α → Esys EnrollResult}
    (h : Follows out server serverUrl ⟨(z s.world).2, s.posts⟩ (f (z s.world).1) fun reply code => g reply code (z s.world).1) :
    Follows out server serverUrl s (offline z >>= f) fun reply code => z >>= g reply code := h

theorem Finishes.pure {r : EnrollResult} (hposted : r.posted = some ak) (hactivation : r.activation = none) :
    Finishes server ak activate s (Pure.pure (.ok r)) (Pure.pure r) := by
  refine ⟨⟨hposted, fun code hcode => absurd (hactivation.symm.trans hcode) (Option.some_ne_none code).symm⟩, ?_⟩
  change (_, s) = (_, (⟨s.world, (if r.activation.isSome then [activate] else []) ++ s.posts⟩ : Exchange))
  rw [hactivation]
  rfl

theorem Finishes.bind {α : Type} {z : Esys α} {f : α → Online (Checked EnrollResult)} {g : α → Esys EnrollResult}
    (h : Finishes server ak activate ⟨(z s.world).2, s.posts⟩ (f (z s.world).1) (g (z s.world).1)) :
    Finishes server ak activate s (offline z >>= f) (z >>= g) := h

theorem Finishes.ite {c : Prop} [Decidable c] {x x' : Online (Checked EnrollResult)} {y y' : Esys EnrollResult}
    (hx : Finishes server ak activate s x y) (hx' : Finishes server ak activate s x' y') :
    Finishes server ak activate s (if c then x else x') (if c then y else y') := by
  split_ifs
  · exact hx
  · exact hx'

/-- The activation is posted, and its code is in the result. -/
theorem Finishes.post {f : Int × Bytes → Online (Checked EnrollResult)} {y : Esys EnrollResult}
    (hposted : (y s.world).1.posted = some ak)
    (hactivation : (y s.world).1.activation = some (server (activate :: s.posts)).1)
    (hf : f (server (activate :: s.posts)) ⟨s.world, activate :: s.posts⟩ =
      (.ok (y s.world).1, ⟨(y s.world).2, activate :: s.posts⟩)) :
    Finishes server ak activate s (httpPostJson server activate.url activate.body >>= f) y := by
  refine ⟨⟨hposted, fun code hcode => Option.some.inj (hactivation.symm.trans hcode)⟩, ?_⟩
  rw [hactivation]
  exact hf

theorem enrollReply_deviceId (httpCode : Int) (received : Bytes) : (enrollReply httpCode received).deviceId.length ≤ 63 :=
  List.length_take_le _ _

theorem answerReply_finishes (out : TpmBytes) (server : Server) (serverUrl : Bytes) (tpm : TpmContext) (ak : Key)
    {reply : EnrollReply} (hid : reply.deviceId.length ≤ 63) (s : Exchange) :
    let activate := (answered out ak reply).post out serverUrl
    Finishes server ak activate s (answerReply out server serverUrl tpm ak reply)
      (postEnrollment tpm ak reply (server (activate :: s.posts)).1) := by
  intro activate
  have hbody := activateBody_eq out ak hid (out.secret_le (decoded reply.credentialBlob) (decoded reply.encryptedSecret))
  unfold answerReply postEnrollment
  refine .ite (.bind (.pure rfl rfl)) (.ite (.bind (.ite (.pure rfl rfl) (.pure rfl rfl)))
    (.bind (.ite ?_ (.bind (.pure rfl rfl)))))
  dsimp only
  rw [hbody]
  by_cases hactivated : (server (activate :: s.posts)).1 ≠ 200
  · rw [if_pos hactivated]
    refine Finishes.post rfl rfl ?_
    change (if (server (activate :: s.posts)).1 ≠ 200 then (Pure.pure _ : Online (Checked EnrollResult)) else
      Pure.pure _) _ = _
    rw [if_pos hactivated]
    rfl
  · rw [if_neg hactivated]
    refine Finishes.post rfl rfl ?_
    change (if (server (activate :: s.posts)).1 ≠ 200 then (Pure.pure _ : Online (Checked EnrollResult)) else
      Pure.pure _) _ = _
    rw [if_neg hactivated]
    rfl

theorem said_posted {reply : EnrollReply} {r : EnrollResult} (h : r.posted = some ak) :
    (said out reply r).map (Message.post out serverUrl) =
      (if r.activation.isSome then [(answered out ak reply).post out serverUrl] else []) ++
        [(Message.enroll ak).post out serverUrl] := by
  rw [said, h]
  cases r.activation <;> rfl

theorem postEnrollmentOnline_follows (tpm : TpmContext) (ak : Key) (s : Exchange) :
    Follows out server serverUrl s (postEnrollmentOnline out server serverUrl tpm endorsementKey ak ak)
      (postEnrollment tpm ak) := by
  let enroll := (Message.enroll ak).post out serverUrl
  obtain ⟨httpCode, received, hserver⟩ : ∃ httpCode received, server (enroll :: s.posts) = (httpCode, received) := ⟨_, _, rfl⟩
  let reply := enrollReply httpCode received
  obtain ⟨⟨hposted, hactivation⟩, hrest⟩ := answerReply_finishes out server serverUrl tpm ak
    (enrollReply_deviceId httpCode received) ⟨s.world, enroll :: s.posts⟩
  refine ⟨reply, (server ((answered out ak reply).post out serverUrl :: enroll :: s.posts)).1,
    ⟨fun key hkey => ?_, fun c hc => ?_⟩, ?_⟩
  · obtain rfl := Option.some.inj (hposted.symm.trans hkey)
    exact ⟨received, hserver, rfl⟩
  · refine ⟨(hactivation c hc).symm, ?_⟩
    rw [said_posted hposted, Option.mem_def.mp hc]
    exact hactivation c hc
  · rw [said_posted hposted, List.append_assoc]
    refine Eq.trans ?_ hrest
    unfold postEnrollmentOnline
    rw [enrollBody_eq]
    change answerReply out server serverUrl tpm ak (enrollReply (server (enroll :: s.posts)).1 (server (enroll :: s.posts)).2) _ = _
    rw [hserver]
    rfl

theorem tpmReadEkPub_key (ctx : TpmContext) (w : World) : ∀ key ∈ (tpmReadEkPub ctx w).1.1, key = endorsementKey := by
  suffices h : Triple (fun _ => True) (tpmReadEkPub ctx) fun r _ => ∀ key ∈ r.1, key = endorsementKey from h w trivial
  refine .bind (.any _) fun _ => .bind (Q := fun primary _ => ∀ p ∈ primary, p.2 = endorsementKey) ?_ fun primary => ?_
  · refine .bind (.any _) fun _ => .ite (fun _ => .bind (.any _) fun handle => .pure fun w _ p hp => ?_)
      fun _ => .pure fun w _ p hp => by cases hp
    exact Option.some.inj hp ▸ rfl
  · cases primary with
    | none => exact .pure fun w _ key hkey => by cases hkey
    | some p =>
      refine .assume (fun w h => h p rfl) fun hp => .bind (.any _) fun rc => .ite (fun _ => .pure fun w _ key hkey => ?_)
        fun _ => .pure fun w _ key hkey => by cases hkey
      exact (Option.some.inj hkey).symm.trans hp

/-- A key at the handle of the attestation key, of a TPM that stays as it is. -/
def KeyOf (ctx : TpmContext) (t : Tpm) (key : Option Key) (w : World) : Prop :=
  w.tpm = t ∧ ∀ k ∈ key, (ctx.akHandle.bind fun handle => t.objects.lookup handle) = some k

theorem call_same (t : Tpm) : Triple (fun w => w.tpm = t) call fun _ w => w.tpm = t :=
  fun w hw => (call_tpm w).trans hw

theorem esysReadPublic_keyOf {ctx : TpmContext} {handle : Handle} (h : ctx.akHandle = some handle) (t : Tpm) :
    Triple (fun w => w.tpm = t) (esysReadPublic handle) (KeyOf ctx t) := by
  refine .bind (call_same t) fun rc => .ite (fun _ w hw => ?_) fun _ => .pure fun w hw => ⟨hw, fun k hk => by cases hk⟩
  refine ⟨hw, fun k hk => ?_⟩
  rw [h, Option.bind_some, ← hw]
  exact hk

theorem tpmGetAkPub_keyOf (ctx : TpmContext) (t : Tpm) : Triple (fun w => w.tpm = t) (tpmGetAkPub ctx) (KeyOf ctx t) := by
  unfold tpmGetAkPub
  cases h : ctx.akHandle with
  | none => exact .pure fun w hw => ⟨hw, fun k hk => by cases hk⟩
  | some handle =>
    refine .bind (esysReadPublic_keyOf h t) fun key => ?_
    cases key with
    | none => exact .pure fun w hw => hw
    | some key =>
      refine .assume (fun w hw => hw.2 key rfl) fun hkey => .bind ((call_same t).pre fun w hw => hw.1) fun rc => ?_
      refine .ite (fun _ => .pure fun w hw => ⟨hw, fun k hk => ?_⟩) fun _ => .pure fun w hw => ⟨hw, fun k hk => by cases hk⟩
      exact hkey.trans hk

theorem tpmGetAkName_keyOf (ctx : TpmContext) (t : Tpm) : Triple (fun w => w.tpm = t) (tpmGetAkName ctx) (KeyOf ctx t) := by
  unfold tpmGetAkName
  cases h : ctx.akHandle with
  | none => exact .pure fun w hw => ⟨hw, fun k hk => by cases hk⟩
  | some handle => exact esysReadPublic_keyOf h t

/-- The name is that of the key whose public area was read. -/
theorem tpmGetAkName_key {ctx : TpmContext} {ak named : Key} {w : World} (hak : (tpmGetAkPub ctx w).1 = some ak)
    (hnamed : (tpmGetAkName ctx (tpmGetAkPub ctx w).2).1 = some named) : named = ak := by
  obtain ⟨hsame, hpub⟩ := tpmGetAkPub_keyOf ctx w.tpm w rfl
  obtain ⟨-, hname⟩ := tpmGetAkName_keyOf ctx w.tpm (tpmGetAkPub ctx w).2 hsame
  exact Option.some.inj ((hname named hnamed).symm.trans (hpub ak hak))

theorem rootHeraldEnrollOnline_follows (out : TpmBytes) (server : Server) (serverUrl : CString) (outInfo : Bool) (s : Exchange) :
    Follows out server serverUrl.chars s (rootHeraldEnrollOnline out server (some serverUrl) outInfo)
      (rootHeraldEnroll (some serverUrl) outInfo) := by
  cases outInfo with
  | false => exact .silent rfl rfl
  | true =>
    have hclosed (s : Exchange) (tpm : TpmContext) (status : RootHeraldResult) : Follows out server serverUrl.chars s
        (do offline (tpmClose tpm); return .ok { status := status }) fun _ _ => do tpmClose tpm; return { status := status } :=
      .bind (.silent rfl rfl)
    refine Follows.bind (z := tpmOpen) ?_
    cases (tpmOpen s.world).1 with
    | none => exact .silent rfl rfl
    | some tpm =>
      refine Follows.bind (z := tpmReadEkPub tpm) ?_
      have hek := tpmReadEkPub_key tpm (tpmOpen s.world).2
      generalize tpmReadEkPub tpm (tpmOpen s.world).2 = read at hek
      obtain ⟨⟨ekPub, tpm⟩, w⟩ := read
      cases ekPub with
      | none => exact hclosed _ tpm .noTpm
      | some ek =>
        obtain rfl := hek ek rfl
        refine Follows.bind (z := tpmCreateAk tpm) ?_
        generalize tpmCreateAk tpm w = create
        obtain ⟨⟨created, tpm⟩, w⟩ := create
        cases created with
        | false => exact hclosed _ tpm .enrollmentFailed
        | true =>
          refine Follows.bind (z := tpmGetAkPub tpm) ?_
          cases hak : (tpmGetAkPub tpm w).1 with
          | none => exact hclosed _ tpm .enrollmentFailed
          | some ak =>
            refine Follows.bind (z := tpmGetAkName tpm) ?_
            cases hnamed : (tpmGetAkName tpm (tpmGetAkPub tpm w).2).1 with
            | none => exact hclosed _ tpm .enrollmentFailed
            | some named =>
              obtain rfl := tpmGetAkName_key hak hnamed
              exact postEnrollmentOnline_follows tpm named _

/-- For whatever the TPM answers and however the server replies to what it was sent so far: no buffer is left, the
call does what it does with the replies of the server, and posts an enrollment with a key drawn in the call, and for a
challenge that is met an activation of the same key. Every body is read as the values of its message, but for an
activation whose device id is not text, which is not JSON. -/
theorem enroll_conversation (out : TpmBytes) (server : Server) (serverUrl : CString) (outInfo : Bool) (w : World) :
    ∃ reply activateCode,
      let r := (rootHeraldEnroll (some serverUrl) outInfo reply activateCode).run w
      (rootHeraldEnrollOnline out server (some serverUrl) outInfo).run ⟨w, []⟩ =
        (.ok r.1, ⟨r.2, (said out reply r.1).map (Message.post out serverUrl.chars)⟩) ∧
      Answered out server serverUrl.chars reply activateCode r.1 [] ∧
      (∀ ak ∈ r.1.posted, ∃ n ≥ w.tpm.drawn, ak = .created n) ∧
      ∀ m ∈ said out reply r.1, parse (m.post out serverUrl.chars).body =
        if m.Readable then some (stringsValue (m.members out)) else none := by
  obtain ⟨reply, activateCode, hanswered, hrun⟩ :=
    rootHeraldEnrollOnline_follows out server serverUrl outInfo ⟨w, []⟩
  obtain ⟨-, hfresh⟩ := rootHeraldEnroll_fresh w.tpm.drawn (some serverUrl) outInfo reply activateCode w (le_refl _)
  refine ⟨reply, activateCode, ?_, hanswered, fun ak hak => ?_, fun m _ => m.parse_post out serverUrl.chars⟩
  · rw [List.append_nil] at hrun
    exact hrun
  · obtain ⟨n, rfl, hn, -⟩ := hfresh ak hak
    exact ⟨n, hn, rfl⟩

end Simulation
end RootHerald.Linux
