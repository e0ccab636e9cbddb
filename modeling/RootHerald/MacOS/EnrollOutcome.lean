import RootHerald.Lib.Triple
import RootHerald.MacOS.Client

/-! What Enroll returns on macOS, from the answers of Security.framework and of the server. -/
namespace RootHerald.MacOS
open Lib

theorem getOrCreateDeviceKey_tried (sec : Security) (chain : Keychain) :
    Triple (fun s => s = chain) (getOrCreateDeviceKey sec) fun key _ => key.isSome ↔ HasKey sec chain := by
  rintro s rfl
  exact getOrCreateDeviceKey_isSome

/-- The server takes the device in, and answers with a secret that the key can sign. -/
def Accepts (sec : Security) (decodes : Bool) (enroll : HttpReply EnrollReply) : Prop :=
  enroll.statusCode = 201 ∧ decodes ∧ sec.signs ∧
    ∃ deviceId credBlob encSecret, enroll.dictionary = some ⟨some deviceId, some credBlob, some encSecret⟩

/-- The enrollment gets as far as to post the activation. -/
def EnrollCompletes (chain : Keychain) (serverUrl outInfo : Bool) (sec : Security) (decodes : Bool)
    (enroll : HttpReply EnrollReply) : Prop :=
  serverUrl ∧ outInfo ∧ isAvailable sec ∧ HasKey sec chain ∧ sec.exports ∧ Accepts sec decodes enroll

/-- The device id in the server's reply. -/
def repliedId (enroll : HttpReply EnrollReply) : Option Bytes := enroll.dictionary.bind EnrollReply.deviceId

/-- Enroll returns OK exactly if it posted the activation, whatever the answer to it. -/
def Outcome (completes : Prop) (deviceId : Option Bytes) (activate : HttpReply Unit) (r : EnrollResult) : Prop :=
  (completes ∧ r.status = .ok ∧ r.activation = some activate.statusCode ∧
      some r.info.deviceId = deviceId.map (safeCopy deviceIdSize)) ∨
    (¬ completes ∧ r.status ≠ .ok ∧ r.activation = none)

private theorem Outcome.failed {completes : Prop} {deviceId : Option Bytes} {activate : HttpReply Unit}
    {status : RootHeraldResult} (h : ¬ completes) (hstatus : status ≠ .ok) :
    Outcome completes deviceId activate { status := status } :=
  .inr ⟨h, hstatus, rfl⟩

variable {sec : Security} {decodes : Bool}

theorem postEnrollment_outcome (reply : EnrollReply) (activate : HttpReply Unit) :
    Outcome (decodes ∧ sec.signs ∧ ∃ deviceId credBlob encSecret, reply = ⟨some deviceId, some credBlob, some encSecret⟩)
      reply.deviceId activate (postEnrollment sec decodes reply activate) := by
  have hfailed : RootHeraldResult.enrollmentFailed ≠ .ok := by decide
  match reply with
  | ⟨some deviceId, some credBlob, some encSecret⟩ =>
    change Outcome _ _ _ (if ¬ decodes then _ else if ¬ sec.signs then _ else if _ then _ else _)
    by_cases hdecodes : decodes
    · by_cases hsigns : sec.signs
      · rw [if_neg (not_not.mpr hdecodes), if_neg (not_not.mpr hsigns)]
        refine .inl ⟨⟨hdecodes, hsigns, _, _, _, rfl⟩, ?_⟩
        split_ifs
        · exact ⟨rfl, rfl, rfl⟩
        · exact ⟨rfl, rfl, rfl⟩
      · rw [if_neg (not_not.mpr hdecodes), if_pos hsigns]
        exact .failed (fun h => hsigns h.2.1) hfailed
    · rw [if_pos hdecodes]
      exact .failed (fun h => hdecodes h.1) hfailed
  | ⟨none, _, _⟩ => exact .failed (fun ⟨_, _, _, _, _, h⟩ => by cases h) hfailed
  | ⟨some _, none, _⟩ => exact .failed (fun ⟨_, _, _, _, _, h⟩ => by cases h) hfailed
  | ⟨some _, some _, none⟩ => exact .failed (fun ⟨_, _, _, _, _, h⟩ => by cases h) hfailed

theorem rootHeraldEnroll_outcome (chain : Keychain) (serverUrl outInfo : Bool) (enroll : HttpReply EnrollReply)
    (activate : HttpReply Unit) : Outcome (EnrollCompletes chain serverUrl outInfo sec decodes enroll)
      (repliedId enroll) activate ((rootHeraldEnroll serverUrl outInfo sec decodes enroll activate).run chain).1 := by
  have hrun : Triple (fun s => s = chain) (rootHeraldEnroll serverUrl outInfo sec decodes enroll activate)
      fun r _ => Outcome (EnrollCompletes chain serverUrl outInfo sec decodes enroll) (repliedId enroll) activate r := by
    refine .ite (fun hargs => .pure fun _ _ => .failed (fun h => ?_) (by decide)) fun hargs => ?_
    · exact hargs.elim (fun hurl => hurl h.1) fun hout => hout h.2.1
    obtain ⟨hurl, hout⟩ := not_or.mp hargs
    refine .ite (fun hsec => .pure fun _ _ => .failed (fun h => hsec h.2.2.1) (by decide)) fun hsec => ?_
    refine .bind (getOrCreateDeviceKey_tried sec chain) fun key => .assume (fun _ h => h) fun hhas => ?_
    cases key with
    | none => exact .pure fun _ _ => .failed (fun h => Bool.false_ne_true (hhas.mpr h.2.2.2.1)) (by decide)
    | some key =>
      refine .ite (fun hexports => .pure fun _ _ => .failed (fun h => hexports h.2.2.2.2.1) (by decide)) fun hexports => ?_
      obtain ⟨statusCode, dictionary⟩ := enroll
      cases dictionary with
      | none =>
        refine .pure fun _ _ => .failed (fun h => ?_) (by decide)
        obtain ⟨-, -, -, _, _, _, h⟩ := h.2.2.2.2.2
        cases h
      | some reply =>
        refine .ite (fun hcode => .pure fun _ _ => .failed (fun h => hcode h.2.2.2.2.2.1) (by decide)) fun hcode => ?_
        refine .pure fun _ _ => ?_
        obtain ⟨⟨hdecodes, hsigns, _, _, _, rfl⟩, h⟩ | ⟨hnot, h⟩ := (postEnrollment_outcome reply activate :
          Outcome _ _ _ (postEnrollment sec decodes reply activate))
        · refine .inl ⟨⟨not_not.mp hurl, not_not.mp hout, not_not.mp hsec, hhas.mp rfl, not_not.mp hexports,
            not_not.mp hcode, hdecodes, hsigns, _, _, _, rfl⟩, h⟩
        · refine .inr ⟨fun hall => hnot ?_, h⟩
          obtain ⟨-, hdecodes, hsigns, _, _, _, hreply⟩ := hall.2.2.2.2.2
          exact ⟨hdecodes, hsigns, _, _, _, Option.some.inj hreply⟩
  exact hrun chain rfl

end RootHerald.MacOS
