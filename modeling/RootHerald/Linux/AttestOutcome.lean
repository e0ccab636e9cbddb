import RootHerald.Linux.EnrollOutcome

/-! What Attest hands out, from the outcomes of the library calls and the server's reply. -/
namespace RootHerald.Linux
open Lib

/-- Esys_Initialize, the three calls of tpm_create_ak, and Esys_Quote. -/
def callsToQuote : Nat := 5

theorem tpmQuote_tried {codes : List Bool} {n : Nat} {ctx : TpmContext} (hak : ctx.akHandle ≠ none) (nonce : Bytes)
    (nonceLen : Nat) : Triple (Reached codes n) (tpmQuote ctx nonce nonceLen) fun r => Tried codes (n + 1) r.1 := by
  unfold tpmQuote
  cases hhandle : ctx.akHandle with
  | none => exact absurd hhandle hak
  | some handle =>
    refine .bind (Q := fun _ => Reached codes n) (fun _ h => h) fun key => ?_
    exact .bind call_tried fun rc => .pure fun _ h => h

/-- What the server's reply leaves in out_info. -/
def attestInfo (sessionId : Bytes) (reply : AttestReply) : AttestationInfo :=
  ⟨sessionId.take 63, reply.status, reply.authorizationCode, reply.redirectUri, reply.reason⟩

theorem attestNonce_info (codes : List Bool) (sessionId nonce : Bytes) (nonceLen : Nat) (reply : AttestReply) :
    Triple (Reached codes 0) (attestNonce sessionId nonce nonceLen reply) fun r _ =>
      r.info = if Succeed codes callsToQuote ∧ reply.httpCode = 200 then attestInfo sessionId reply else {} := by
  have hfail : ∀ {m : Nat} {w : World}, m ≤ callsToQuote → ¬ Succeed codes m → ({} : AttestationInfo) =
      if Succeed codes callsToQuote ∧ reply.httpCode = 200 then attestInfo sessionId reply else {} :=
    fun hm h => (if_neg fun hs => h (hs.1.of_le hm)).symm
  refine .bind tpmOpen_tried fun tpm => ?_
  cases tpm with
  | none => exact .pure fun w h => hfail (w := w) (by decide) h.1
  | some tpm =>
    refine .assume (c := tpm = {}) (fun _ h => h.2 tpm rfl) fun htpm => ?_
    subst htpm
    refine .bind ((tpmCreateAk_tried none).pre fun _ h => h.1) fun (created, tpm) => ?_
    cases created with
    | false =>
      refine .bind ((Triple.frame (c := ¬ Succeed codes 4) _).pre fun _ h => h.1) fun _ => .pure fun w h => ?_
      exact hfail (w := w) (by decide) h
    | true =>
      refine .assume (c := ∃ srk ak, tpm = ⟨none, some srk, some ak⟩) (fun _ h => h.2 rfl) fun ⟨srk, ak, htpm⟩ => ?_
      subst htpm
      refine .bind ((tpmQuote_tried (fun h => by cases h) nonce nonceLen).pre fun _ h => h.1) fun (quoted, quote) => ?_
      cases quoted with
      | false =>
        refine .bind (Triple.frame (c := ¬ Succeed codes 5) _) fun _ => .pure fun w h => ?_
        exact hfail (w := w) (by decide) h
      | true =>
        refine .assume (c := Succeed codes callsToQuote) (fun _ h => h.succeed) fun hs => ?_
        refine .ite (fun h => absurd rfl h) fun _ => .ite (fun hcode => .bind (.any _) fun _ => .pure fun _ _ => ?_) fun hcode => ?_
        · exact (if_neg fun h => hcode h.2).symm
        · refine .bind (.any _) fun _ => .ite (fun _ => .pure fun _ _ => ?_) fun _ => .pure fun _ _ => ?_
          · exact (if_pos ⟨hs, not_not.mp hcode⟩).symm
          · exact (if_pos ⟨hs, not_not.mp hcode⟩).symm

/-- The nonce decodes to something, the quote is taken, and the server answers with 200. -/
def AttestAnswered (nonceB64 : CString) (stack : Bytes) (reply : AttestReply) (codes : List Bool) : Prop :=
  (base64Decode nonceB64.chars stack).1 ≠ 0 ∧ Succeed codes callsToQuote ∧ reply.httpCode = 200

instance (nonceB64 : CString) (stack : Bytes) (reply : AttestReply) (codes : List Bool) :
    Decidable (AttestAnswered nonceB64 stack reply codes) :=
  inferInstanceAs (Decidable (_ ∧ _ ∧ _))

theorem rootHeraldAttest_info (serverUrl sessionId nonceB64 : CString) (stack : Bytes) (reply : AttestReply) (tpm : Tpm)
    (codes : List Bool) :
    ((rootHeraldAttest (some serverUrl) (some sessionId) (some nonceB64) true stack reply).run ⟨tpm, codes⟩).1.info =
      if AttestAnswered nonceB64 stack reply codes then attestInfo sessionId.chars reply else {} := by
  have hrun : rootHeraldAttest (some serverUrl) (some sessionId) (some nonceB64) true stack reply =
      if (base64Decode nonceB64.chars stack).1 = 0 then Pure.pure { status := .invalidParam }
      else attestNonce sessionId.chars (base64Decode nonceB64.chars stack).2 (base64Decode nonceB64.chars stack).1 reply :=
    rfl
  rw [hrun]
  by_cases hnonce : (base64Decode nonceB64.chars stack).1 = 0
  · rw [if_pos hnonce, if_neg fun h => h.1 hnonce]
    rfl
  · rw [if_neg hnonce]
    have hstart : Reached codes 0 ⟨tpm, codes⟩ := ⟨fun i hi => absurd hi (Nat.not_lt_zero i), rfl⟩
    rw [attestNonce_info codes _ _ _ reply ⟨tpm, codes⟩ hstart]
    exact if_congr (and_iff_right hnonce).symm rfl rfl

end RootHerald.Linux
