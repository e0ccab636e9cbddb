import RootHerald.Linux.AttestationKey

/-! What Enroll returns, from the outcomes of the library calls and the server's replies. -/
namespace RootHerald.Linux
open Lib

section Progress
variable {α β : Type} {codes : List Bool} {n m : Nat}

/-- The first n calls succeed. -/
def Succeed (codes : List Bool) (n : Nat) : Prop := ∀ i < n, codes[i]? = some true

instance (codes : List Bool) (n : Nat) : Decidable (Succeed codes n) :=
  inferInstanceAs (Decidable (∀ i < n, codes[i]? = some true))

theorem succeed_succ : Succeed codes (n + 1) ↔ Succeed codes n ∧ codes[n]? = some true := Nat.forall_lt_succ_right

theorem Succeed.of_le (h : Succeed codes n) (hm : m ≤ n) : Succeed codes m := fun i hi => h i (hi.trans_le hm)

/-- All of the n calls made so far succeeded. -/
structure Reached (codes : List Bool) (n : Nat) (w : World) : Prop where
  succeed : Succeed codes n
  rest : w.codes = codes.drop n

/-- The first n calls were made and succeeded, or they do not all succeed. -/
def Tried (codes : List Bool) (n : Nat) (rc : Bool) (w : World) : Prop :=
  if rc then Reached codes n w else ¬ Succeed codes n

theorem Tried.iff {rc : Bool} {w : World} (h : Tried codes n rc w) : rc = true ↔ Succeed codes n := by
  cases rc with
  | false => exact iff_of_false Bool.false_ne_true h
  | true => exact iff_of_true rfl h.succeed

/-- A failure before the last call is a failure of all. -/
theorem Tried.failed {w : World} (h : ¬ Succeed codes m) (hm : m ≤ n) : Tried codes n false w :=
  fun hn => h (hn.of_le hm)

theorem call_tried : Triple (Reached codes n) call (Tried codes (n + 1)) := by
  rintro ⟨tpm, rest⟩ ⟨hsucceed, rfl⟩
  change Tried codes (n + 1) (call ⟨tpm, codes.drop n⟩).1 (call ⟨tpm, codes.drop n⟩).2
  cases hcode : codes[n]? with
  | none =>
    rw [List.drop_eq_nil_of_le (List.getElem?_eq_none_iff.mp hcode)]
    exact fun h => Option.some_ne_none _ ((succeed_succ.1 h).2.symm.trans hcode)
  | some rc =>
    obtain ⟨hlt, hget⟩ := List.getElem?_eq_some_iff.mp hcode
    rw [List.drop_eq_getElem_cons hlt, hget]
    cases rc with
    | false => exact fun h => by cases (succeed_succ.1 h).2.symm.trans hcode
    | true => exact ⟨succeed_succ.2 ⟨hsucceed, hcode⟩, rfl⟩

/-- A call, and what follows when it succeeds. -/
theorem tried_then {x : Esys β} {y : β} {Q : β → World → Prop} (hx : Triple (Reached codes (n + 1)) x Q)
    (hy : ¬ Succeed codes (n + 1) → ∀ w, Q y w) :
    Triple (Reached codes n) (call >>= fun rc => if rc then x else Pure.pure y) Q :=
  .bind call_tried fun rc => by
    cases rc with
    | false => exact .pure fun w h => hy h w
    | true => exact hx

theorem esysCreatePrimary_tried (hierarchy : Hierarchy) (template : Template) :
    Triple (Reached codes n) (esysCreatePrimary hierarchy template) fun r => Tried codes (n + 1) r.isSome :=
  tried_then (fun _ h => ⟨h.succeed, h.rest⟩) fun h _ => h

theorem esysCreate_tried : Triple (Reached codes n) esysCreate fun r => Tried codes (n + 1) r.isSome :=
  tried_then (fun _ h => ⟨h.succeed, h.rest⟩) fun h _ => h

theorem esysLoad_tried (key : Key) : Triple (Reached codes n) (esysLoad key) fun r => Tried codes (n + 1) r.isSome :=
  tried_then (fun _ h => ⟨h.succeed, h.rest⟩) fun h _ => h

/-- An object is loaded at the handle. -/
def Loaded (handle : Handle) (w : World) : Prop := (w.tpm.objects.lookup handle).isSome

theorem call_loaded (handle : Handle) : Triple (Loaded handle) call fun _ => Loaded handle := by
  intro w hw
  unfold Loaded
  rwa [call_tpm]

theorem esysReadPublic_tried (handle : Handle) :
    Triple (fun w => Reached codes n w ∧ Loaded handle w) (esysReadPublic handle)
      fun r w => Tried codes (n + 1) r.isSome w ∧ Loaded handle w := by
  refine .bind (call_tried.and (call_loaded handle)) fun rc => ?_
  cases rc with
  | false => exact .pure fun _ h => h
  | true =>
    rintro w ⟨hreached, hloaded⟩
    refine ⟨?_, hloaded⟩
    change Tried codes (n + 1) (w.tpm.objects.lookup handle).isSome w
    rw [hloaded]
    exact hreached

theorem tpmOpen_tried : Triple (Reached codes n) tpmOpen
    fun r w => Tried codes (n + 1) r.isSome w ∧ ∀ tpm ∈ r, tpm = {} :=
  tried_then (fun _ h => ⟨h, fun _ ht => by cases ht; rfl⟩) fun h _ => ⟨h, fun _ ht => by cases ht⟩

theorem tpmReadEkPub_tried : Triple (Reached codes n) (tpmReadEkPub {}) fun r w =>
    Tried codes (n + 2) r.1.isSome w ∧ (r.1.isSome → ∃ ek, r.2 = { ekHandle := some ek }) := by
  refine .bind (Q := fun _ => Reached codes n) (.pure fun _ h => h) fun _ => ?_
  refine .bind (esysCreatePrimary_tried _ _) fun primary => ?_
  cases primary with
  | none => exact .pure fun _ h => ⟨Tried.failed h (by omega), fun hsome => by cases hsome⟩
  | some p => exact tried_then (fun _ h => ⟨h, fun _ => ⟨p.1, rfl⟩⟩) fun h _ => ⟨h, fun hsome => by cases hsome⟩

theorem tpmCreateAk_tried (ek : Option Handle) : Triple (Reached codes n) (tpmCreateAk { ekHandle := ek }) fun r w =>
    Tried codes (n + 3) r.1 w ∧ (r.1 = true → ∃ srk ak, r.2 = ⟨ek, some srk, some ak⟩) := by
  have hfail : ∀ {ctx : TpmContext} {m : Nat}, m ≤ n + 3 → Triple (fun _ => ¬ Succeed codes m)
      (Pure.pure (false, ctx) : Esys (Bool × TpmContext)) fun r w =>
        Tried codes (n + 3) r.1 w ∧ (r.1 = true → ∃ srk ak, r.2 = ⟨ek, some srk, some ak⟩) :=
    fun hm => .pure fun _ h => ⟨Tried.failed h hm, fun ht => by cases ht⟩
  refine .bind (Q := fun _ => Reached codes n) (.pure fun _ h => h) fun _ => ?_
  refine .bind (esysCreatePrimary_tried _ _) fun primary => ?_
  cases primary with
  | none => exact hfail (by omega)
  | some p =>
    refine .bind esysCreate_tried fun key => ?_
    cases key with
    | none => exact hfail (by omega)
    | some key =>
      refine .bind (Q := fun _ => Reached codes (n + 2)) (.pure fun _ h => h) fun _ => ?_
      refine .bind (esysLoad_tried key) fun ak => ?_
      cases ak with
      | none => exact hfail (le_refl _)
      | some ak => exact .pure fun _ h => ⟨h, fun _ => ⟨p.1, ak, rfl⟩⟩

theorem tpmGetAkPub_tried {ctx : TpmContext} {ak : Handle} (hak : ctx.akHandle = some ak) :
    Triple (fun w => Reached codes n w ∧ Loaded ak w) (tpmGetAkPub ctx)
      fun r w => Tried codes (n + 2) r.isSome w ∧ Loaded ak w := by
  unfold tpmGetAkPub
  rw [hak]
  refine .bind (esysReadPublic_tried ak) fun key => ?_
  cases key with
  | none => exact .pure fun _ h => ⟨Tried.failed h.1 (by omega), h.2⟩
  | some key =>
    refine .bind (call_tried.and (call_loaded ak)) fun rc => ?_
    cases rc with
    | false => exact .pure fun _ h => h
    | true => exact .pure fun _ h => h

theorem tpmGetAkName_tried {ctx : TpmContext} {ak : Handle} (hak : ctx.akHandle = some ak) :
    Triple (fun w => Reached codes n w ∧ Loaded ak w) (tpmGetAkName ctx) fun r => Tried codes (n + 1) r.isSome := by
  unfold tpmGetAkName
  rw [hak]
  exact (esysReadPublic_tried ak).post fun _ _ h => h.1

theorem tpmActivateCredential_tried {ctx : TpmContext} (hak : ctx.akHandle ≠ none) (hek : ctx.ekHandle ≠ none)
    {credBlobLen secretLen : Nat} : Triple (Reached codes n) (tpmActivateCredential ctx credBlobLen secretLen)
      fun r _ => r = true ↔
        (credBlobLen ≤ idObjectCapacity ∧ secretLen ≤ encryptedSecretCapacity) ∧ Succeed codes (n + 3) := by
  unfold tpmActivateCredential
  rw [if_neg (by simp only [hak, hek, or_self, not_false_eq_true])]
  refine .ite (fun hblob => .pure fun _ _ => ?_) fun hblob => .ite (fun hsecret => .pure fun _ _ => ?_) fun hsecret => ?_
  · exact iff_of_false Bool.false_ne_true fun h => absurd h.1.1 (Nat.not_le.mpr hblob)
  · exact iff_of_false Bool.false_ne_true fun h => absurd h.1.2 (Nat.not_le.mpr hsecret)
  rw [and_iff_right ⟨Nat.not_lt.mp hblob, Nat.not_lt.mp hsecret⟩]
  have hfail : ∀ {m : Nat} {w : World}, m ≤ n + 3 → ¬ Succeed codes m → (false = true ↔ Succeed codes (n + 3)) :=
    fun {m} {w} hm h => (Tried.failed (w := w) h hm).iff
  refine tried_then ?_ fun h w => hfail (w := w) (by omega) h
  refine .bind call_tried fun rc => ?_
  cases rc with
  | false => exact .bind (Triple.frame (c := ¬ Succeed codes (n + 2)) _) fun _ => .pure fun w h => hfail (w := w) (by omega) h
  | true => exact call_tried.post fun _ _ h => h.iff

end Progress

section Outcome

/-- The server's reply carries a challenge for ActivateCredential. -/
def EnrollReply.Challenges (reply : EnrollReply) : Prop := reply.credentialBlob ≠ [] ∧ reply.encryptedSecret ≠ []

/-- The server took the device in. -/
def EnrollReply.Accepts (reply : EnrollReply) : Prop :=
  (reply.httpCode = 201 ∨ reply.httpCode = 200) ∧ reply.deviceId ≠ []

instance (reply : EnrollReply) : Decidable reply.Challenges := inferInstanceAs (Decidable (_ ∧ _))

instance (reply : EnrollReply) : Decidable reply.Accepts := inferInstanceAs (Decidable (_ ∧ _))

/-- The calls up to Esys_ReadPublic for the name, then the three of tpm_activate_credential. -/
def callsToPost : Nat := 9
def callsToActivate : Nat := 12

/-- The challenge fits the structures it is copied into, and ActivateCredential succeeds. -/
def EnrollReply.Activates (reply : EnrollReply) (codes : List Bool) : Prop :=
  (decodedLen reply.credentialBlob ≤ idObjectCapacity ∧ decodedLen reply.encryptedSecret ≤ encryptedSecretCapacity) ∧
    Succeed codes callsToActivate

instance (reply : EnrollReply) (codes : List Bool) : Decidable (reply.Activates codes) :=
  inferInstanceAs (Decidable (_ ∧ _))

/-- What Enroll returns once the first calls succeeded. -/
structure PostOutcome (codes : List Bool) (reply : EnrollReply) (activateCode : Int) (r : EnrollResult) : Prop where
  ok_iff : r.status = .ok ↔
    reply.Accepts ∧ (reply.Challenges → reply.Activates codes → activateCode = 200)
  activation : r.activation =
    if reply.Accepts ∧ reply.Challenges ∧ reply.Activates codes then some activateCode else none
  deviceId : r.status = .ok → r.info.deviceId = reply.deviceId

theorem postEnrollment_outcome {codes : List Bool} {tpm : TpmContext} (hak : tpm.akHandle ≠ none)
    (hek : tpm.ekHandle ≠ none) (ak : Key) (reply : EnrollReply) (activateCode : Int) :
    Triple (Reached codes callsToPost) (postEnrollment tpm ak reply activateCode)
      fun r _ => PostOutcome codes reply activateCode r := by
  refine .ite (fun hcode => .bind (.any _) fun _ => .pure fun _ _ => ?_) fun hcode => ?_
  · have hrefused : ¬ reply.Accepts := fun h => by
      rcases h.1 with h | h
      · exact hcode.1 h
      · exact hcode.2 h
    exact ⟨iff_of_false (fun h => by cases h) fun h => hrefused h.1, (if_neg fun h => hrefused h.1).symm, fun h => by cases h⟩
  rw [not_and_or, not_not, not_not] at hcode
  refine .ite (fun hempty => .bind (.any _) fun _ => .ite (fun hid => ?_) fun hid => ?_) fun hfull => ?_
  · have hplain : ¬ reply.Challenges := fun h => hempty.elim hid fun he => he.elim h.1 h.2
    refine .pure fun _ _ => ⟨iff_of_true rfl ⟨⟨hcode, hid⟩, fun h => absurd h hplain⟩, ?_, fun _ => rfl⟩
    exact (if_neg fun h => hplain h.2.1).symm
  · have hrefused : ¬ reply.Accepts := fun h => hid h.2
    refine .pure fun _ _ => ⟨iff_of_false (fun h => by cases h) fun h => hrefused h.1, ?_, fun h => by cases h⟩
    exact (if_neg fun h => hrefused h.1).symm
  simp only [not_or] at hfull
  obtain ⟨hid, hchallenges⟩ := hfull
  have haccepts : reply.Accepts := ⟨hcode, hid⟩
  refine .bind (tpmActivateCredential_tried hak hek) fun activated => ?_
  cases activated with
  | false =>
    refine .bind (.frame _) fun _ => .pure fun _ h => ?_
    have hsucceed : ¬ reply.Activates codes := fun hs => Bool.false_ne_true (h.mpr hs)
    refine ⟨iff_of_true rfl ⟨haccepts, fun _ hs => absurd hs hsucceed⟩, ?_, fun _ => rfl⟩
    exact (if_neg fun h => hsucceed h.2.2).symm
  | true =>
    refine .bind (.frame _) fun _ => .assume (c := reply.Activates codes) (fun _ h => h.mp rfl) fun hs => ?_
    refine .ite (fun hpost => .pure fun _ _ => ?_) fun hpost => .pure fun _ _ => ?_
    · refine ⟨iff_of_false (fun h => by cases h) fun h => hpost (h.2 hchallenges hs), ?_, fun h => by cases h⟩
      exact (if_pos ⟨haccepts, hchallenges, hs⟩).symm
    · refine ⟨iff_of_true rfl ⟨haccepts, fun _ _ => not_not.mp hpost⟩, ?_, fun _ => rfl⟩
      exact (if_pos ⟨haccepts, hchallenges, hs⟩).symm

/-- The enrollment is posted. -/
def Posts (serverUrl : Option CString) (outInfo : Bool) (codes : List Bool) : Prop :=
  serverUrl.isSome ∧ outInfo ∧ Succeed codes callsToPost

instance (serverUrl : Option CString) (outInfo : Bool) (codes : List Bool) : Decidable (Posts serverUrl outInfo codes) :=
  inferInstanceAs (Decidable (_ ∧ _ ∧ _))

private theorem enrollPosted_outcome {codes : List Bool} {outInfo : Bool} (url : CString) (hout : outInfo)
    (reply : EnrollReply) (activateCode : Int) : Triple (Reached codes 0)
      (rootHeraldEnroll (some url) outInfo reply activateCode) fun r _ =>
        (Succeed codes callsToPost ∧ PostOutcome codes reply activateCode r) ∨
          (¬ Succeed codes callsToPost ∧ r.status ≠ .ok ∧ r.activation = none) := by
  have hfail : ∀ (m : Nat) {P : Prop} {tpm : TpmContext} (status : RootHeraldResult), m ≤ callsToPost →
      status ≠ .ok → Triple (fun _ => ¬ Succeed codes m ∧ P)
        (tpmClose tpm >>= fun _ => Pure.pure { status := status }) fun (r : EnrollResult) _ =>
          (Succeed codes callsToPost ∧ PostOutcome codes reply activateCode r) ∨
            (¬ Succeed codes callsToPost ∧ r.status ≠ .ok ∧ r.activation = none) :=
    fun m _ _ status hm hstatus => .bind (.frame _) fun _ => .pure fun _ h =>
      .inr ⟨fun hs => h.1 (hs.of_le hm), hstatus, rfl⟩
  unfold rootHeraldEnroll
  refine .ite (fun hargs => absurd hargs (by simp [hout])) fun _ => .bind tpmOpen_tried fun tpm => ?_
  cases tpm with
  | none => exact .pure fun _ h => .inr ⟨fun hs => h.1 (hs.of_le (by decide)), by decide, rfl⟩
  | some tpm =>
    refine .assume (c := tpm = {}) (fun _ h => h.2 tpm rfl) fun htpm => ?_
    subst htpm
    refine .bind (tpmReadEkPub_tried.pre fun _ h => h.1) fun (ekPub, tpm) => ?_
    cases ekPub with
    | none => exact hfail 3 .noTpm (by decide) (by decide)
    | some ekPub =>
      refine .assume (c := ∃ ek, tpm = { ekHandle := some ek }) (fun _ h => h.2 rfl) fun ⟨ek, htpm⟩ => ?_
      subst htpm
      refine .bind (((tpmCreateAk_tried (some ek)).and (tpmCreateAk_fresh 0 _)).pre fun _ h => ⟨h.1, Nat.zero_le _⟩)
        fun (created, tpm) => ?_
      cases created with
      | false => exact (hfail 6 (P := True) .enrollmentFailed (by decide) (by decide)).pre fun _ h => ⟨h.1.1, trivial⟩
      | true =>
        refine .assume (c := ∃ srk ak, tpm = ⟨some ek, some srk, some ak⟩) (fun _ h => h.1.2 rfl) fun ⟨srk, ak, htpm⟩ => ?_
        subst htpm
        refine .bind ((tpmGetAkPub_tried rfl).pre fun w h => ⟨h.1.1, ?_⟩) fun akPub => ?_
        · obtain ⟨-, handle, key, hhandle, hlookup, -⟩ := h.2.2 rfl
          cases hhandle
          exact Option.isSome_of_eq_some hlookup
        cases akPub with
        | none => exact (hfail 8 (P := True) .enrollmentFailed (by decide) (by decide)).pre fun _ h => ⟨h.1, trivial⟩
        | some akPub =>
          refine .bind ((tpmGetAkName_tried rfl).pre fun _ h => h) fun akName => ?_
          cases akName with
          | none => exact (hfail 9 (P := True) .enrollmentFailed (by decide) (by decide)).pre fun _ h => ⟨h, trivial⟩
          | some akName =>
            refine .assume (c := Succeed codes callsToPost) (fun _ h => h.succeed) fun hs => ?_
            refine (postEnrollment_outcome ?_ ?_ akPub reply activateCode).post fun _ _ h => .inl ⟨hs, h⟩
            · exact fun h => by cases h
            · exact fun h => by cases h

theorem rootHeraldEnroll_outcome (serverUrl : Option CString) (outInfo : Bool) (reply : EnrollReply)
    (activateCode : Int) (tpm : Tpm) (codes : List Bool) {r : EnrollResult}
    (hr : ((rootHeraldEnroll serverUrl outInfo reply activateCode).run ⟨tpm, codes⟩).1 = r) :
    (Posts serverUrl outInfo codes ∧ PostOutcome codes reply activateCode r) ∨
      (¬ Posts serverUrl outInfo codes ∧ r.status ≠ .ok ∧ r.activation = none) := by
  subst hr
  have hinvalid : RootHeraldResult.invalidParam ≠ .ok := by decide
  match serverUrl, outInfo with
  | none, _ => exact .inr ⟨fun h => Bool.false_ne_true h.1, hinvalid, rfl⟩
  | some _, false => exact .inr ⟨fun h => Bool.false_ne_true h.2.1, hinvalid, rfl⟩
  | some url, true =>
    have hstart : Reached codes 0 ⟨tpm, codes⟩ := ⟨fun i hi => absurd hi (Nat.not_lt_zero i), rfl⟩
    rcases enrollPosted_outcome url rfl reply activateCode _ hstart with ⟨hs, h⟩ | ⟨hs, h⟩
    · exact .inl ⟨⟨rfl, rfl, hs⟩, h⟩
    · exact .inr ⟨fun hp => hs hp.2.2, h⟩

/-- Enroll returns OK exactly if the server takes the device in, and the activation, where it comes
to be posted, is answered with 200. -/
def EnrollCompletes (serverUrl : Option CString) (outInfo : Bool) (reply : EnrollReply) (activateCode : Int)
    (codes : List Bool) : Prop :=
  Posts serverUrl outInfo codes ∧ reply.Accepts ∧
    (reply.Challenges → reply.Activates codes → activateCode = 200)

theorem rootHeraldEnroll_ok_iff (serverUrl : Option CString) (outInfo : Bool) (reply : EnrollReply)
    (activateCode : Int) (tpm : Tpm) (codes : List Bool) :
    ((rootHeraldEnroll serverUrl outInfo reply activateCode).run ⟨tpm, codes⟩).1.status = .ok ↔
      EnrollCompletes serverUrl outInfo reply activateCode codes := by
  rcases rootHeraldEnroll_outcome serverUrl outInfo reply activateCode tpm codes rfl with ⟨hp, h⟩ | ⟨hp, h⟩
  · exact h.ok_iff.trans ⟨fun h => ⟨hp, h⟩, fun h => h.2⟩
  · exact iff_of_false h.1 fun h => hp h.1

theorem rootHeraldEnroll_activation (serverUrl : Option CString) (outInfo : Bool) (reply : EnrollReply)
    (activateCode : Int) (tpm : Tpm) (codes : List Bool) :
    ((rootHeraldEnroll serverUrl outInfo reply activateCode).run ⟨tpm, codes⟩).1.activation =
      if Posts serverUrl outInfo codes ∧ reply.Accepts ∧ reply.Challenges ∧ reply.Activates codes then
        some activateCode
      else none := by
  rcases rootHeraldEnroll_outcome serverUrl outInfo reply activateCode tpm codes rfl with ⟨hp, h⟩ | ⟨hp, -, h⟩
  · rw [h.activation]
    exact if_congr ⟨fun h => ⟨hp, h⟩, fun h => h.2⟩ rfl rfl
  · rw [h, if_neg fun h => hp h.1]

end Outcome
end RootHerald.Linux
