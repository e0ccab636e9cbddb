import RootHerald.Linux.Client

/-! Which nonce strings reach the TPM as they were sent. -/
namespace RootHerald.Linux
open Lib

section Quote

/-- tpm_quote hands on the first bytes of the buffer, at most its capacity of them. -/
theorem tpmQuote_data (ctx : TpmContext) (nonce : Bytes) (nonceLen : Nat) :
    Triple (fun _ => True) (tpmQuote ctx nonce nonceLen) fun r _ =>
      ∀ q, r.2 = some q → q.qualifyingData = nonce.take (min nonceLen qualifyingDataCapacity) := by
  have hsize : (if qualifyingDataCapacity < nonceLen then qualifyingDataCapacity else nonceLen) =
      min nonceLen qualifyingDataCapacity := by
    split_ifs <;> omega
  unfold tpmQuote
  rw [hsize]
  cases ctx.akHandle with
  | none => exact .pure fun _ _ q h => by cases h
  | some handle =>
    refine .bind (.frame _) fun key => .bind (.frame _) fun rc => .pure fun _ _ q h => ?_
    cases h
    rfl

theorem attestNonce_data (sessionId nonce : Bytes) (nonceLen : Nat) (reply : AttestReply) :
    Triple (fun _ => True) (attestNonce sessionId nonce nonceLen reply) fun r _ =>
      ∀ q, r.quote = some q → q.qualifyingData = nonce.take (min nonceLen qualifyingDataCapacity) := by
  unfold attestNonce
  refine .bind (.frame _) fun tpm => ?_
  cases tpm with
  | none => exact .pure fun _ _ q h => by cases h
  | some tpm =>
    refine .bind (.frame _) fun (created, tpm) => .ite (fun _ => ?_) fun _ => ?_
    · exact .bind (.frame _) fun _ => .pure fun _ _ q h => by cases h
    refine .bind (tpmQuote_data tpm nonce nonceLen) fun (quoted, quote) => .ite (fun _ => ?_) fun _ => ?_
    · exact .bind (.frame _) fun _ => .pure fun _ h => h
    refine .ite (fun _ => .bind (.frame _) fun _ => .pure fun _ h => h) fun _ => ?_
    refine .bind (.frame _) fun _ => .ite (fun _ => .pure fun _ h => h) fun _ => .pure fun _ h => h

/-- With a TPM that answers up to the quote, the nonce reaches it. -/
private theorem attestNonce_reaches (sessionId nonce : Bytes) (nonceLen : Nat) (reply : AttestReply) :
    ∃ q, ((attestNonce sessionId nonce nonceLen reply).run { codes := [true, true, true, true] }).1.quote = some q :=
  ⟨_, rfl⟩

private theorem rootHeraldAttest_some (serverUrl sessionId nonceB64 : CString) (outInfo : Bool) (stack : Bytes)
    (reply : AttestReply) :
    rootHeraldAttest (some serverUrl) (some sessionId) (some nonceB64) outInfo stack reply =
      if ¬ outInfo then Pure.pure { status := .invalidParam }
      else if (base64Decode nonceB64.chars stack).1 = 0 then Pure.pure { status := .invalidParam }
      else attestNonce sessionId.chars (base64Decode nonceB64.chars stack).2 (base64Decode nonceB64.chars stack).1 reply :=
  rfl

/-- A quote is over the front of what the decoder left in the buffer, and only of a nonce that it did
not refuse. -/
theorem rootHeraldAttest_data {serverUrl sessionId : Option CString} {nonceB64 : CString} {outInfo : Bool}
    {stack : Bytes} {reply : AttestReply} {w : World} {q : QuoteCall}
    (h : ((rootHeraldAttest serverUrl sessionId (some nonceB64) outInfo stack reply).run w).1.quote = some q) :
    (base64Decode nonceB64.chars stack).1 ≠ 0 ∧ q.qualifyingData = (base64Decode nonceB64.chars stack).2.take
      (min (base64Decode nonceB64.chars stack).1 qualifyingDataCapacity) := by
  match serverUrl, sessionId with
  | some _, some sessionId =>
    rw [rootHeraldAttest_some] at h
    by_cases hout : ¬ outInfo
    · rw [if_pos hout] at h
      cases h
    rw [if_neg hout] at h
    by_cases hlen : (base64Decode nonceB64.chars stack).1 = 0
    · rw [if_pos hlen] at h
      cases h
    rw [if_neg hlen] at h
    exact ⟨hlen, attestNonce_data _ _ _ _ w trivial q h⟩
  | none, _ => cases h
  | some _, none => cases h

private theorem rootHeraldAttest_length_le {serverUrl sessionId : Option CString} {nonceB64 : CString} {outInfo : Bool}
    {stack : Bytes} {reply : AttestReply} {w : World} {q : QuoteCall}
    (h : ((rootHeraldAttest serverUrl sessionId (some nonceB64) outInfo stack reply).run w).1.quote = some q) :
    q.qualifyingData.length ≤ qualifyingDataCapacity := by
  rw [(rootHeraldAttest_data h).2, List.length_take]
  omega

private theorem rootHeraldAttest_reaches {nonceB64 : CString} {stack : Bytes}
    (h : (base64Decode nonceB64.chars stack).1 ≠ 0) :
    ∃ w q, ((rootHeraldAttest (some nonceB64) (some nonceB64) (some nonceB64) true stack ⟨0, [], [], [], []⟩).run
      w).1.quote = some q := by
  rw [rootHeraldAttest_some, if_neg (by decide), if_neg h]
  exact ⟨_, attestNonce_reaches _ _ _ _⟩

/-- Whatever else is passed, and whatever the stack and the TPM hold, a quote over the nonce is over
its base64 decoding. -/
def NonceQuotedWhole (nonceB64 : CString) : Prop :=
  ∀ serverUrl sessionId outInfo stack reply w q, stack.length = nonceSize →
    ((rootHeraldAttest serverUrl sessionId (some nonceB64) outInfo stack reply).run w).1.quote = some q →
      Base64.decode nonceB64.chars = some q.qualifyingData

/-- Only a text too short to decode and valid text within the TPM's capacity keep their nonce. -/
theorem nonceQuotedWhole_iff (nonceB64 : CString) :
    NonceQuotedWhole nonceB64 ↔ (nonceB64.chars.length < 4 ∧ padding nonceB64.chars = 0) ∨
      ∃ val, Base64.decode nonceB64.chars = some val ∧ val.length ≤ qualifyingDataCapacity := by
  constructor
  · intro h
    rw [← base64Decode_eq_zero_iff nonceB64.chars (List.replicate nonceSize 0)]
    by_cases hzero : (base64Decode nonceB64.chars (List.replicate nonceSize 0)).1 = 0
    · exact .inl hzero
    · obtain ⟨w, q, hq⟩ := rootHeraldAttest_reaches hzero
      exact .inr ⟨q.qualifyingData, h _ _ _ _ _ w q List.length_replicate hq, rootHeraldAttest_length_le hq⟩
  · rintro (hzero | ⟨val, hval, hlen⟩) serverUrl sessionId outInfo stack reply w q hstack hq
    · exact absurd ((base64Decode_eq_zero_iff _ _).mpr hzero) (rootHeraldAttest_data hq).1
    · have hfit : val.length ≤ stack.length := hlen.trans (hstack ▸ (by decide))
      have hdata := (rootHeraldAttest_data hq).2
      rw [base64Decode_valid hval hfit, min_eq_left hlen, List.take_left] at hdata
      rw [hval, hdata]

/-- A nonce of 65 zero bytes. -/
def longNonce : CString where
  chars := Base64.encode (List.replicate 65 0)
  noNul := by decide +kernel
  length_lt := by decide +kernel

/-- A nonce longer than the TPM's capacity is cut. -/
theorem nonce_cut_to_capacity : ¬ ∀ nonceB64 : CString, NonceQuotedWhole nonceB64 := by
  intro h
  have hlong : (base64Decode longNonce.chars (List.replicate nonceSize 0)).1 ≠ 0 := by decide +kernel
  obtain ⟨w, q, hq⟩ := rootHeraldAttest_reaches hlong
  have hdecode := h longNonce _ _ _ _ _ w q List.length_replicate hq
  rw [show Base64.decode longNonce.chars = some (List.replicate 65 0) from Base64.decode_encode _] at hdecode
  have hlen := rootHeraldAttest_length_le hq
  rw [← Option.some.inj hdecode, List.length_replicate] at hlen
  exact absurd hlen (by decide)

end Quote
end RootHerald.Linux
