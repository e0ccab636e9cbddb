import RootHerald.Lib.Json
import RootHerald.MacOS.EnrollOutcome

/-! Enroll on macOS where a member of the server's reply may be any JSON value: a method of NSString
that is sent to something else raises. -/
namespace RootHerald.MacOS
open Lib

section Source

abbrev Members := List (Bytes × Json)

/-- What UTF8String or length is sent to; none where it raises. -/
def stringOf : Json → Option Bytes
  | .string s => some s
  | _ => none

/-- nil answers to every method. -/
def asString : Option Json → Option (Option Bytes)
  | none => some none
  | some value => (stringOf value).map some

/-- Steps 4 to 7, none where the call raises. -/
def postMembers (sec : Security) (decodes : Bool) (members : Members) (activate : HttpReply Unit) :
    Option EnrollResult :=
  match members.lookup (text "deviceId"), members.lookup (text "credentialBlob"),
      members.lookup (text "encryptedSecret") with
  | some deviceId, some credBlob, some encSecret => do
    let encSecret ← stringOf encSecret
    if ¬ decodes then return { status := .enrollmentFailed }
    if ¬ sec.signs then return { status := .enrollmentFailed }
    -- the activation is posted before a device id that is no string raises
    let deviceId ← stringOf deviceId
    if activate.dictionary.isNone ∨ activate.statusCode ≠ 200 then
      let credBlob ← stringOf credBlob
      return {
        status := .ok
        info := ⟨safeCopy deviceIdSize deviceId, safeCopy credentialBlobSize credBlob,
          safeCopy encryptedSecretSize encSecret⟩
        activation := some activate.statusCode }
    return {
      status := .ok
      info := { deviceId := safeCopy deviceIdSize deviceId }
      activation := some activate.statusCode }
  | _, _, _ => return { status := .enrollmentFailed }

def rootHeraldEnrollMembers (serverUrl outInfo : Bool) (sec : Security) (decodes : Bool) (enroll : HttpReply Members)
    (activate : HttpReply Unit) : StateM Keychain (Option EnrollResult) := do
  if ¬ serverUrl ∨ ¬ outInfo then return some { status := .invalidParam }
  if ¬ isAvailable sec then return some { status := .noTpm }
  match ← getOrCreateDeviceKey sec with
  | none => return some { status := .internal }
  | some _privateKey =>
    if ¬ sec.exports then return some { status := .internal }
    match enroll.dictionary with
    | none => return some { status := .enrollmentFailed }
    | some members =>
      if enroll.statusCode ≠ 201 then return some { status := .enrollmentFailed }
      return postMembers sec decodes members activate

end Source

section Agreement

/-- The members as the driver has them where they are strings. -/
def utf8Members (members : Members) : EnrollReply where
  deviceId := (members.lookup (text "deviceId")).map fun value => (stringOf value).getD []
  credBlob := (members.lookup (text "credentialBlob")).map fun value => (stringOf value).getD []
  encSecret := (members.lookup (text "encryptedSecret")).map fun value => (stringOf value).getD []

def utf8Reply (enroll : HttpReply Members) : HttpReply EnrollReply :=
  ⟨enroll.statusCode, enroll.dictionary.map utf8Members⟩

/-- A member that is used is no string: the secret, the device id once the secret is signed, the
credential once the activation failed. -/
def MembersRaise (sec : Security) (decodes : Bool) (members : Members) (activate : HttpReply Unit) : Prop :=
  ∃ deviceId credBlob encSecret, members.lookup (text "deviceId") = some deviceId ∧
    members.lookup (text "credentialBlob") = some credBlob ∧
    members.lookup (text "encryptedSecret") = some encSecret ∧
    (stringOf encSecret = none ∨ (decodes ∧ sec.signs ∧ (stringOf deviceId = none ∨
      ((activate.dictionary.isNone ∨ activate.statusCode ≠ 200) ∧ stringOf credBlob = none))))

variable {sec : Security} {decodes : Bool} {members : Members} {activate : HttpReply Unit}

/-- The branch on the activation, for a secret that is signed. -/
private theorem postMembers_signed (activate : HttpReply Unit) {deviceId credBlob encSecret : Json} {secret : Bytes}
    (hlookup : members.lookup (text "deviceId") = some deviceId ∧
      members.lookup (text "credentialBlob") = some credBlob ∧ members.lookup (text "encryptedSecret") = some encSecret)
    (hsecret : stringOf encSecret = some secret) (hdecodes : decodes) (hsigns : sec.signs) :
    ((stringOf deviceId = none ∨ ((activate.dictionary.isNone ∨ activate.statusCode ≠ 200) ∧ stringOf credBlob = none)) ∧
        postMembers sec decodes members activate = none) ∨
      (¬ (stringOf deviceId = none ∨
          ((activate.dictionary.isNone ∨ activate.statusCode ≠ 200) ∧ stringOf credBlob = none)) ∧
        postMembers sec decodes members activate = some (postEnrollment sec decodes (utf8Members members) activate)) := by
  obtain ⟨hlookupId, hlookupBlob, hlookupSecret⟩ := hlookup
  unfold postMembers postEnrollment utf8Members
  simp only [hlookupId, hlookupBlob, hlookupSecret, hsecret, hdecodes, hsigns, Option.map_some, not_true_eq_false,
    if_false, Option.bind_eq_bind, Option.bind_some, Option.getD_some]
  cases hid : stringOf deviceId with
  | none => exact .inl ⟨.inl rfl, rfl⟩
  | some id =>
    by_cases hactivate : activate.dictionary.isNone ∨ activate.statusCode ≠ 200
    · rw [Option.bind_some, if_pos hactivate, if_pos hactivate]
      cases hblob : stringOf credBlob with
      | none => exact .inl ⟨.inr ⟨hactivate, rfl⟩, rfl⟩
      | some blob => exact .inr ⟨fun h => h.elim nofun nofun, rfl⟩
    · rw [Option.bind_some, if_neg hactivate, if_neg hactivate]
      exact .inr ⟨fun h => h.elim nofun fun h => hactivate h.1, rfl⟩

/-- Either a member raises, or the members stand for strings. -/
theorem postMembers_cases (sec : Security) (decodes : Bool) (members : Members) (activate : HttpReply Unit) :
    (MembersRaise sec decodes members activate ∧ postMembers sec decodes members activate = none) ∨
      (¬ MembersRaise sec decodes members activate ∧
        postMembers sec decodes members activate = some (postEnrollment sec decodes (utf8Members members) activate)) := by
  cases hid : members.lookup (text "deviceId") with
  | none =>
    refine .inr ⟨fun ⟨_, _, _, h, _⟩ => ?_, ?_⟩
    · cases hid.symm.trans h
    · simp only [postMembers, postEnrollment, utf8Members, hid, Option.map_none]
      rfl
  | some deviceId =>
  cases hblob : members.lookup (text "credentialBlob") with
  | none =>
    refine .inr ⟨fun ⟨_, _, _, _, h, _⟩ => ?_, ?_⟩
    · cases hblob.symm.trans h
    · simp only [postMembers, postEnrollment, utf8Members, hid, hblob, Option.map_none]
      rfl
  | some credBlob =>
  cases hsecret : members.lookup (text "encryptedSecret") with
  | none =>
    refine .inr ⟨fun ⟨_, _, _, _, _, h, _⟩ => ?_, ?_⟩
    · cases hsecret.symm.trans h
    · simp only [postMembers, postEnrollment, utf8Members, hid, hblob, hsecret, Option.map_none]
      rfl
  | some encSecret =>
  have hraise : MembersRaise sec decodes members activate ↔ (stringOf encSecret = none ∨ (decodes ∧ sec.signs ∧
      (stringOf deviceId = none ∨ ((activate.dictionary.isNone ∨ activate.statusCode ≠ 200) ∧ stringOf credBlob = none)))) := by
    unfold MembersRaise
    simp only [hid, hblob, hsecret, Option.some.injEq, exists_and_left, exists_eq_left']
  rw [hraise]
  have hfailed (h : ¬ (decodes ∧ sec.signs)) {secret : Bytes} (hstring : stringOf encSecret = some secret) :
      postMembers sec decodes members activate = some (postEnrollment sec decodes (utf8Members members) activate) := by
    simp only [postMembers, postEnrollment, utf8Members, hid, hblob, hsecret, hstring, Option.map_some]
    by_cases hdecodes : decodes
    · have hsigns : sec.signs = false := eq_false_of_ne_true fun hsigns => h ⟨hdecodes, hsigns⟩
      simp [hdecodes, hsigns]
    · simp [hdecodes]
  cases hstring : stringOf encSecret with
  | none =>
    refine .inl ⟨.inl rfl, ?_⟩
    simp only [postMembers, hid, hblob, hsecret, hstring]
    rfl
  | some secret =>
    by_cases h : decodes ∧ sec.signs
    · rcases postMembers_signed activate ⟨hid, hblob, hsecret⟩ hstring h.1 h.2 with
        ⟨hraises, hnone⟩ | ⟨hnot, hsome⟩
      · exact .inl ⟨.inr ⟨h.1, h.2, hraises⟩, hnone⟩
      · exact .inr ⟨fun hraises => hraises.elim nofun fun hraises => hnot hraises.2.2, hsome⟩
    · exact .inr ⟨fun hraises => hraises.elim nofun fun hraises => h ⟨hraises.1, hraises.2.1⟩, hfailed h hstring⟩

variable {chain : Keychain} {serverUrl outInfo : Bool} {enroll : HttpReply Members}

/-- The enrollment is posted, and answered with 201 and an object. -/
def EnrollAnswered (chain : Keychain) (serverUrl outInfo : Bool) (sec : Security) (enroll : HttpReply Members)
    (members : Members) : Prop :=
  serverUrl ∧ outInfo ∧ isAvailable sec ∧ HasKey sec chain ∧ sec.exports ∧ enroll.statusCode = 201 ∧
    enroll.dictionary = some members

/-- A member of the reply that is reached raises. -/
def ReplyRaises (chain : Keychain) (serverUrl outInfo : Bool) (sec : Security) (decodes : Bool)
    (enroll : HttpReply Members) (activate : HttpReply Unit) : Prop :=
  ∃ members, EnrollAnswered chain serverUrl outInfo sec enroll members ∧ MembersRaise sec decodes members activate

private def RaisesOr (raises : Prop) (r : Option EnrollResult) (strings : EnrollResult) : Prop :=
  (raises ∧ r = none) ∨ (¬ raises ∧ r = some strings)

private theorem RaisesOr.early {status : EnrollResult}
    (h : ∀ members, ¬ EnrollAnswered chain serverUrl outInfo sec enroll members) :
    RaisesOr (ReplyRaises chain serverUrl outInfo sec decodes enroll activate) (some status) status :=
  .inr ⟨fun ⟨members, hanswered, _⟩ => h members hanswered, rfl⟩

/-- The call raises, or does what it does for the strings that the members stand for. -/
theorem rootHeraldEnrollMembers_cases (sec : Security) (decodes : Bool) (chain : Keychain) (serverUrl outInfo : Bool)
    (enroll : HttpReply Members) (activate : HttpReply Unit) :
    let r := ((rootHeraldEnrollMembers serverUrl outInfo sec decodes enroll activate).run chain).1
    let strings := ((rootHeraldEnroll serverUrl outInfo sec decodes (utf8Reply enroll) activate).run chain).1
    (ReplyRaises chain serverUrl outInfo sec decodes enroll activate ∧ r = none) ∨
      (¬ ReplyRaises chain serverUrl outInfo sec decodes enroll activate ∧ r = some strings) := by
  change RaisesOr _ _ _
  unfold rootHeraldEnrollMembers rootHeraldEnroll
  by_cases hargs : ¬ serverUrl ∨ ¬ outInfo
  · rw [if_pos hargs, if_pos hargs]
    exact .early fun members h => hargs.elim (fun hurl => hurl h.1) fun hout => hout h.2.1
  rw [if_neg hargs, if_neg hargs]
  by_cases hsec : ¬ isAvailable sec
  · rw [if_pos hsec, if_pos hsec]
    exact .early fun members h => hsec h.2.2.1
  rw [if_neg hsec, if_neg hsec, StateT.run_bind, StateT.run_bind]
  have hhas : ((getOrCreateDeviceKey sec).run chain).1.isSome ↔ HasKey sec chain := getOrCreateDeviceKey_isSome
  generalize (getOrCreateDeviceKey sec).run chain = keyed at hhas ⊢
  obtain ⟨key, left⟩ := keyed
  cases key with
  | none => exact .early fun members h => Bool.false_ne_true (hhas.mpr h.2.2.2.1)
  | some key =>
    change RaisesOr _ ((ite (¬ sec.exports = true) _ _ : StateM Keychain (Option EnrollResult)).run left).1
      ((ite (¬ sec.exports = true) _ _ : StateM Keychain EnrollResult).run left).1
    by_cases hexports : ¬ sec.exports
    · rw [if_pos hexports, if_pos hexports]
      exact .early fun members h => hexports h.2.2.2.2.1
    rw [if_neg hexports, if_neg hexports]
    obtain ⟨statusCode, dictionary⟩ := enroll
    cases dictionary with
    | none => exact .early fun members h => by cases h.2.2.2.2.2.2
    | some members =>
      change RaisesOr _ ((ite (statusCode ≠ 201) _ _ : StateM Keychain (Option EnrollResult)).run left).1
        ((ite (statusCode ≠ 201) _ _ : StateM Keychain EnrollResult).run left).1
      by_cases hcode : statusCode ≠ 201
      · rw [if_pos hcode, if_pos hcode]
        exact .early fun members h => hcode h.2.2.2.2.2.1
      rw [if_neg hcode, if_neg hcode]
      have hanswered : EnrollAnswered chain serverUrl outInfo sec ⟨statusCode, some members⟩ members :=
        ⟨not_not.mp fun h => hargs (.inl h), not_not.mp fun h => hargs (.inr h), not_not.mp hsec, hhas.mp rfl,
          not_not.mp hexports, not_not.mp hcode, rfl⟩
      rcases postMembers_cases sec decodes members activate with ⟨hraises, hnone⟩ | ⟨hnot, hsome⟩
      · exact .inl ⟨⟨members, hanswered, hraises⟩, hnone⟩
      · refine .inr ⟨fun ⟨members', h, hraises⟩ => ?_, hsome⟩
        obtain rfl := Option.some.inj h.2.2.2.2.2.2
        exact hnot hraises

end Agreement
end RootHerald.MacOS
