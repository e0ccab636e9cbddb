import RootHerald.Lib.Utf8
import RootHerald.MacOS.EnrollOutcome

/-! What the macOS host answers to an enroll request, against whether the device was activated. -/
namespace RootHerald.MacOS
open Lib

section Source

/-- The payload of an answer to an enroll request. -/
inductive EnrollPayload where
  | refused (error : Bytes)
  | answered (success : Bool) (deviceId : Bytes)
  deriving DecidableEq

/-- stringWithUTF8String, nil where the bytes are no UTF-8. -/
def stringWithUTF8String (s : Bytes) : Option Bytes := if Utf8.valid s then some s else none

/-- The payload, none where a dictionary literal raises on nil, and the status code of the activation,
if it was posted. -/
structure EnrollAnswer where
  payload : Option EnrollPayload
  activation : Option Int := none

def handleEnroll (serverUrl : Option Bytes) (sec : Security) (decodes : Bool) (enroll : HttpReply EnrollReply)
    (activate : HttpReply Unit) : StateM Keychain EnrollAnswer := do
  if serverUrl.all (· = []) then return { payload := some (.refused (text "serverUrl is required")) }
  let r ← rootHeraldEnroll true true sec decodes enroll activate
  return { payload := (stringWithUTF8String r.info.deviceId).map (.answered (r.status = .ok))
           activation := r.activation }

end Source

section Activation

/-- The members of the challenge are there, and hold something. -/
def Challenges (enroll : HttpReply EnrollReply) : Prop :=
  ∃ reply credBlob encSecret, enroll.dictionary = some reply ∧ reply.credBlob = some credBlob ∧
    reply.encSecret = some encSecret ∧ credBlob ≠ [] ∧ encSecret ≠ []

/-- The device id survives the copy into its field. -/
def KeepsDeviceId (enroll : HttpReply EnrollReply) : Prop :=
  ∃ deviceId ∈ repliedId enroll, Utf8.valid (safeCopy deviceIdSize deviceId) = true

/-- The enrollment got as far as to post the activation, for a challenge, and it was not answered with 200. -/
def LeftUnactivated (serverUrl : Option Bytes) (sec : Security) (decodes : Bool) (enroll : HttpReply EnrollReply)
    (activate : HttpReply Unit) (chain : Keychain) : Prop :=
  ¬ serverUrl.all (· = []) ∧ EnrollCompletes chain true true sec decodes enroll ∧ Challenges enroll ∧
    KeepsDeviceId enroll ∧ activate.statusCode ≠ 200

def SaysSuccess (payload : Option EnrollPayload) : Prop := ∃ deviceId, payload = some (.answered true deviceId)

/-- Success is answered only where the activation was answered with 200, or no challenge was set. -/
def SuccessMeansActivated (serverUrl : Option Bytes) (sec : Security) (decodes : Bool) (enroll : HttpReply EnrollReply)
    (activate : HttpReply Unit) (chain : Keychain) : Prop :=
  SaysSuccess ((handleEnroll serverUrl sec decodes enroll activate).run chain).1.payload →
    ((handleEnroll serverUrl sec decodes enroll activate).run chain).1.activation = some 200 ∨ ¬ Challenges enroll

variable {sec : Security} {decodes : Bool} {enroll : HttpReply EnrollReply} {activate : HttpReply Unit} {chain : Keychain}

private theorem handleEnroll_refused {serverUrl : Option Bytes} (hurl : serverUrl.all (· = []) = true) :
    ((handleEnroll serverUrl sec decodes enroll activate).run chain).1.payload =
      some (.refused (text "serverUrl is required")) := by
  unfold handleEnroll
  rw [if_pos hurl]
  rfl

private theorem handleEnroll_answers {serverUrl : Option Bytes} (hurl : ¬ serverUrl.all (· = []) = true) :
    ((handleEnroll serverUrl sec decodes enroll activate).run chain).1 =
      let r := ((rootHeraldEnroll true true sec decodes enroll activate).run chain).1
      { payload := (stringWithUTF8String r.info.deviceId).map (.answered (r.status = .ok)), activation := r.activation } := by
  unfold handleEnroll
  rw [if_neg hurl]
  rfl

theorem successMeansActivated_iff (serverUrl : Option Bytes) :
    SuccessMeansActivated serverUrl sec decodes enroll activate chain ↔
      ¬ LeftUnactivated serverUrl sec decodes enroll activate chain := by
  by_cases hurl : serverUrl.all (· = []) = true
  · refine iff_of_true (fun ⟨deviceId, h⟩ => ?_) fun h => h.1 hurl
    cases (handleEnroll_refused hurl).symm.trans h
  unfold SuccessMeansActivated
  rw [handleEnroll_answers hurl]
  dsimp only
  have houtcome : Outcome (EnrollCompletes chain true true sec decodes enroll) (repliedId enroll) activate
      ((rootHeraldEnroll true true sec decodes enroll activate).run chain).1 :=
    rootHeraldEnroll_outcome chain true true enroll activate
  rcases houtcome with ⟨hcompletes, hok, hactivation, hid⟩ | ⟨hnot, hok, -⟩
  swap
  · refine iff_of_true (fun ⟨deviceId, h⟩ => ?_) fun h => hnot h.2.1
    obtain ⟨_, -, h⟩ := Option.map_eq_some_iff.mp h
    exact absurd (of_decide_eq_true (EnrollPayload.answered.inj h).1) hok
  obtain ⟨deviceId, hreplied, hcopy⟩ := Option.map_eq_some_iff.mp hid.symm
  rw [hactivation, hok, ← hcopy, Option.some.injEq]
  by_cases hkeeps : Utf8.valid (safeCopy deviceIdSize deviceId) = true
  · have hkeeps' : KeepsDeviceId enroll := ⟨deviceId, hreplied, hkeeps⟩
    have hsays : SaysSuccess ((stringWithUTF8String (safeCopy deviceIdSize deviceId)).map
        (.answered (RootHeraldResult.ok = .ok))) := ⟨_, by rw [stringWithUTF8String, if_pos hkeeps]; rfl⟩
    constructor
    · rintro h ⟨-, -, hchallenges, -, hcode⟩
      exact (h hsays).elim hcode fun h => h hchallenges
    · intro h _
      by_contra hcontra
      rw [not_or, not_not] at hcontra
      exact h ⟨hurl, hcompletes, hcontra.2, hkeeps', hcontra.1⟩
  · refine iff_of_true (fun ⟨_, h⟩ => ?_) fun ⟨_, _, _, ⟨deviceId', hreplied', hvalid⟩, _⟩ => ?_
    · rw [stringWithUTF8String, if_neg hkeeps] at h
      cases h
    · obtain rfl := Option.some.inj (hreplied.symm.trans hreplied')
      exact hkeeps hvalid

end Activation
end RootHerald.MacOS
