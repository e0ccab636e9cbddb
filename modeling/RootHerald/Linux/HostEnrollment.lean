import RootHerald.Linux.EnrollOutcome
import RootHerald.Linux.HostPayloads

/-! What the Linux host answers to an enroll request, against whether the device was activated. -/
namespace RootHerald.Linux
open Lib Json

section Info

/-- The device id is handed out where Enroll returns OK, and only there. -/
theorem postEnrollment_deviceId (tpm : TpmContext) (ak : Key) (reply : EnrollReply) (activateCode : Int) :
    Triple (fun _ => True) (postEnrollment tpm ak reply activateCode) fun r _ =>
      r.info.deviceId = if r.status = .ok then reply.deviceId else [] := by
  refine .ite (fun _ => .bind (.any _) fun _ => .pure fun _ _ => rfl) fun _ => .ite (fun _ => ?_) fun _ => ?_
  · exact .bind (.any _) fun _ => .ite (fun _ => .pure fun _ _ => rfl) fun _ => .pure fun _ _ => rfl
  refine .bind (.any _) fun activated => .ite (fun _ => ?_) fun _ => ?_
  · exact .bind (.frame _) fun _ => .ite (fun _ => .pure fun _ _ => rfl) fun _ => .pure fun _ _ => rfl
  · exact .bind (.frame _) fun _ => .pure fun _ _ => rfl

theorem rootHeraldEnroll_deviceId (serverUrl : Option CString) (outInfo : Bool) (reply : EnrollReply)
    (activateCode : Int) : Triple (fun _ => True) (rootHeraldEnroll serverUrl outInfo reply activateCode) fun r _ =>
      r.info.deviceId = if r.status = .ok then reply.deviceId else [] := by
  apply rootHeraldEnroll_returns (P := fun r => r.info.deviceId = if r.status = .ok then reply.deviceId else [])
  · intro status hne
    exact (if_neg hne).symm
  · intro tpm ak
    exact postEnrollment_deviceId tpm ak reply activateCode

/-- It fits the field of out_info. -/
theorem hostEnroll_deviceId_length (serverUrl : CString) (env : HostEnv) (w : World) :
    ((rootHeraldEnroll (some serverUrl) true (enrollReply env.httpCode env.received) env.activateCode).run
      w).1.info.deviceId.length ≤ 63 := by
  rw [rootHeraldEnroll_deviceId (some serverUrl) true (enrollReply env.httpCode env.received) env.activateCode w trivial]
  split_ifs
  · exact List.length_take_le _ _
  · exact Nat.zero_le _

end Info

section Payload

/-- The payload says that the request succeeded. -/
def SaysSuccess (payload : Checked Bytes) : Prop :=
  ∃ t, payload = .ok t ∧ (openBrace :: memberText (text "success") (text "true")) <+: t

private theorem success_prefix_iff (b : Bool) (rest : Bytes) :
    (openBrace :: memberText (text "success") (text "true")) <+:
      openBrace :: (memberText (text "success") (boolText b) ++ rest) ↔ b = true := by
  cases b with
  | true => exact iff_of_true (List.prefix_append (openBrace :: memberText (text "success") (text "true")) rest) rfl
  | false =>
    refine iff_of_false (fun h => ?_) Bool.false_ne_true
    have hstarts : text "true" = 't'.toUInt8 :: (text "true").tail ∧ text "false" = 'f'.toUInt8 :: (text "false").tail := by
      decide
    have hcommon : ∀ t, openBrace :: memberText (text "success") t =
        (openBrace :: quotationMark :: (text "success" ++ [quotationMark, colon])) ++ t := fun t => by simp [memberText]
    rw [← List.cons_append, hcommon, hcommon, List.append_assoc, List.prefix_append_right_inj, hstarts.1, boolText,
      if_neg Bool.false_ne_true, hstarts.2, List.cons_append, List.cons_prefix_cons] at h
    exact absurd h.1 (by decide)

private theorem saysSuccess_iff {payload : Checked Bytes} {b : Bool} {rest : Bytes}
    (h : payload = .ok (openBrace :: (memberText (text "success") (boolText b) ++ rest))) :
    SaysSuccess payload ↔ b = true := by
  refine Iff.trans ?_ (success_prefix_iff b rest)
  constructor
  · rintro ⟨t, ht, hprefix⟩
    exact Except.ok.inj (h.symm.trans ht) ▸ hprefix
  · exact fun hprefix => ⟨_, h, hprefix⟩

private theorem objectText_first (b : Bool) (entries : List Entry) :
    ∃ rest, objectText ((Entry.raw (text "success") (boolText b) :: entries).map Entry.text) =
      openBrace :: (memberText (text "success") (boolText b) ++ rest) :=
  ⟨tailText entries ++ [closeBrace], by rw [objectText_entries]; simp [Entry.text]⟩

theorem errorPayload_saysSuccess {size : Nat} {message : Bytes} (h : 2 * message.length + 40 ≤ size) :
    ¬ SaysSuccess (errorPayload size message) := by
  obtain ⟨rest, hrest⟩ := objectText_first false [.string (text "error") message]
  rw [saysSuccess_iff ((errorPayload_eq h).trans (congrArg Except.ok hrest))]
  exact Bool.false_ne_true

theorem enrollPayload_saysSuccess {r : EnrollResult} (h : r.info.deviceId.length ≤ 63) :
    SaysSuccess (enrollPayload r) ↔ r.status = .ok := by
  obtain ⟨rest, hrest⟩ := objectText_first (r.status = .ok) [.raw (text "data") (enrollData r.info)]
  rw [saysSuccess_iff ((enrollPayload_eq h).trans (congrArg Except.ok hrest)), decide_eq_true_eq]

end Payload

section Activation

theorem enrollAnswer_noUrl {serverUrl : CString} (hurl : serverUrl.chars = []) (env : HostEnv) (w : World) :
    (enrollAnswer serverUrl env).run w = ({ payload := errorPayload 256 (text "serverUrl is required") }, w) := by
  unfold enrollAnswer
  rw [if_pos hurl]
  rfl

theorem enrollAnswer_url {serverUrl : CString} (hurl : serverUrl.chars ≠ []) (env : HostEnv) (w : World) :
    ((enrollAnswer serverUrl env).run w).1 =
      let r := ((rootHeraldEnroll (some serverUrl) true (enrollReply env.httpCode env.received) env.activateCode).run w).1
      { payload := enrollPayload r, activation := r.activation } := by
  unfold enrollAnswer
  rw [if_neg hurl]
  rfl

/-- The server took the device in, with a challenge that ActivateCredential does not come to answer. -/
def LeftUnactivated (serverUrl : CString) (env : HostEnv) (codes : List Bool) : Prop :=
  serverUrl.chars ≠ [] ∧ Succeed codes callsToPost ∧ (enrollReply env.httpCode env.received).Accepts ∧
    (enrollReply env.httpCode env.received).Challenges ∧ ¬ (enrollReply env.httpCode env.received).Activates codes

/-- Success is answered only where the activation was answered with 200, or no challenge was set. -/
def SuccessMeansActivated (serverUrl : CString) (env : HostEnv) (w : World) : Prop :=
  SaysSuccess ((enrollAnswer serverUrl env).run w).1.payload →
    ((enrollAnswer serverUrl env).run w).1.activation = some 200 ∨ ¬ (enrollReply env.httpCode env.received).Challenges

theorem successMeansActivated_iff (serverUrl : CString) (env : HostEnv) (w : World) :
    SuccessMeansActivated serverUrl env w ↔ ¬ LeftUnactivated serverUrl env w.codes := by
  by_cases hurl : serverUrl.chars = []
  · refine iff_of_true (fun h => ?_) fun h => h.1 hurl
    rw [enrollAnswer_noUrl hurl] at h
    exact absurd h (errorPayload_saysSuccess (by decide))
  unfold SuccessMeansActivated
  rw [enrollAnswer_url hurl]
  dsimp only
  rw [enrollPayload_saysSuccess (hostEnroll_deviceId_length serverUrl env w),
    rootHeraldEnroll_ok_iff (some serverUrl) true _ _ w.tpm w.codes,
    rootHeraldEnroll_activation (some serverUrl) true _ _ w.tpm w.codes]
  unfold LeftUnactivated EnrollCompletes Posts
  generalize enrollReply env.httpCode env.received = reply
  constructor
  · rintro h ⟨-, hposts, haccepts, hchallenges, hactivates⟩
    rcases h ⟨⟨rfl, rfl, hposts⟩, haccepts, fun _ ha => absurd ha hactivates⟩ with h | h
    · rw [if_neg fun h => hactivates h.2.2.2] at h
      cases h
    · exact h hchallenges
  · rintro h ⟨⟨-, -, hposts⟩, haccepts, hcode⟩
    by_cases hchallenges : reply.Challenges
    · have hactivates : reply.Activates w.codes := by
        by_contra hactivates
        exact h ⟨hurl, hposts, haccepts, hchallenges, hactivates⟩
      rw [if_pos ⟨⟨rfl, rfl, hposts⟩, haccepts, hchallenges, hactivates⟩, hcode hchallenges hactivates]
      exact .inl rfl
    · exact .inr hchallenges

end Activation
end RootHerald.Linux
