import RootHerald.Windows.NvArea
import RootHerald.Windows.PcrResponses
import RootHerald.Windows.WireRuns

/-! Well-formed responses of code success, written from their fields, and what the client reads of them. -/
namespace RootHerald.Windows.Wire
open Lib

section Quote

/-- The attestation and the signature behind it, where there is one. -/
def quoteParameters (params : Bytes) : Option (Bytes × Bytes) := (takeSized 2 params).filter (·.2 ≠ [])

theorem quoteParameters_written {attest signature : Bytes} (hlt : attest.length < 2 ^ 16) (hne : signature ≠ []) :
    quoteParameters (writeTpm2b attest ++ signature) = some (attest, signature) := by
  rw [quoteParameters, writeTpm2b, List.append_assoc, takeSized_front (n := 2) (hlt.trans_le (by norm_num)),
    Option.filter_some, if_pos (decide_eq_true hne)]

/-- Quote returns what the parameters hold, and false if they end before a signature, whatever its vectors held. -/
def QuotesParameters (params authorization : Bytes) : Prop :=
  ∀ (akHandle : UInt32) (nonce : Bytes) (pcrIndices : List Nat) (outSignature : Bytes),
    ∃ sent, quote (some (replay fun _ => sessionResponse [] params authorization)) akHandle nonce pcrIndices outSignature
      [] = .ok (quoteParameters params, sent)

variable {params authorization : Bytes}

/-- Quote reads on to the end of the response. -/
theorem quoteResult_sessionResponse :
    quoteResult (sessionResponse [] params authorization) = takeSized 2 (params ++ authorization) := by
  have hbehind : (sessionResponse [] params authorization).drop 14 = params ++ authorization := by
    rw [sessionResponse, List.nil_append]
    exact drop_response (by rw [beBytes_length])
  have hlength : (sessionResponse [] params authorization).length = 14 + (params.length + authorization.length) := by
    rw [sessionResponse, List.nil_append, response_length, List.length_append, List.length_append, beBytes_length]
    omega
  have hcode : Windows.readU32 (sessionResponse [] params authorization) 6 = 0 := response_code _ _
  rw [← hbehind, takeSized_two_drop (by omega)]
  unfold quoteResult
  rw [if_neg (by omega), if_neg (not_not.mpr hcode), if_neg (by omega)]
  by_cases hsize : (sessionResponse [] params authorization).length < 16
  · rw [if_pos hsize, if_neg (by omega)]
  · rw [if_neg hsize]
    by_cases hfits : (sessionResponse [] params authorization).length <
        16 + Windows.readU16 (sessionResponse [] params authorization) 14
    · rw [if_pos hfits, if_neg (by omega)]
    · rw [if_neg hfits, if_pos (by omega)]

private theorem takeSized_append {n : Nat} {s data rest : Bytes} (h : takeSized n s = some (data, rest)) (more : Bytes) :
    takeSized n (s ++ more) = some (data, rest ++ more) := by
  unfold takeSized at h ⊢
  simp only [Option.bind_eq_bind, Option.bind_eq_some_iff] at h ⊢
  obtain ⟨⟨size, behind⟩, hsize, hdata⟩ := h
  obtain ⟨rfl, hlength⟩ := takeBytes_eq_some.mp hsize
  obtain ⟨rfl, hdata⟩ := takeBytes_eq_some.mp hdata
  refine ⟨(size, data ++ rest ++ more), takeBytes_eq_some.mpr ⟨?_, hlength⟩, takeBytes_eq_some.mpr ⟨?_, hdata⟩⟩
  · rw [List.append_assoc]
  · rw [List.append_assoc]

private theorem quotesParameters_run : QuotesParameters params authorization ↔ ∀ outSignature : Bytes,
    ((takeSized 2 (params ++ authorization)).map fun q => (q.1, if q.2 = [] then outSignature else q.2)) =
      quoteParameters params := by
  unfold QuotesParameters
  simp only [quote_run, replay, quoteResult_sessionResponse, Except.ok.injEq, Prod.mk.injEq]
  constructor
  · intro h outSignature
    obtain ⟨_, hq, -⟩ := h 0 [] [] outSignature
    exact hq
  · intro h akHandle nonce pcrIndices outSignature
    exact ⟨_, h outSignature, rfl⟩

/-- A signature is returned with the authorization area behind it. Without one, false is returned exactly if
the response ends before the size that stands there. -/
theorem quotesParameters_iff (params authorization : Bytes) : QuotesParameters params authorization ↔
    if (quoteParameters params).isSome then authorization = [] else takeSized 2 (params ++ authorization) = none := by
  rw [quotesParameters_run, quoteParameters]
  cases hparams : takeSized 2 params with
  | none =>
    simp only [Option.filter_none, Option.isSome_none, Bool.false_eq_true, if_false, Option.map_eq_none_iff]
    exact ⟨fun h => h [], fun h _ => h⟩
  | some q =>
    obtain ⟨attest, signature⟩ := q
    rw [takeSized_append hparams]
    simp only [Option.map_some, Option.filter_some]
    by_cases hnone : signature = []
    · subst hnone
      refine iff_of_false (fun h => ?_) (fun h => ?_)
      · cases h []
      · cases h
    · have hbehind : signature ++ authorization ≠ [] := fun h => hnone (List.append_eq_nil_iff.mp h).1
      simp only [decide_eq_true hnone, Option.isSome_some, if_true, if_neg hbehind, Option.some.injEq, Prod.mk.injEq, true_and,
        List.append_right_eq_self]
      exact ⟨fun h => h [], fun h _ => h⟩

/-- A signature of two bytes behind an attestation of one, and the area of one password session. -/
theorem quotesParameters_trailing : ¬ ∀ params authorization : Bytes, QuotesParameters params authorization := by
  intro h
  have hresult := quotesParameters_run.1 (h (writeTpm2b [0xFF] ++ [0x00, 0x10]) [0, 0, 0x01, 0, 0]) []
  rw [quoteParameters_written (by decide) (by decide)] at hresult
  revert hresult
  decide

end Quote

section PcrRead

/-- TPMS_PCR_SELECTION. -/
structure PcrSelection where
  hash : UInt16
  select : Bytes
  select_lt : select.length < 2 ^ 8

def PcrSelection.marshal (selection : PcrSelection) : Bytes :=
  beBytes 2 selection.hash.toNat ++ (beBytes 1 selection.select.length ++ selection.select)

/-- The parameters of a response to PCR_Read that lists a digest. -/
structure PcrReadResponse where
  updateCounter : UInt32
  selections : List PcrSelection
  digest : Bytes
  digests : List Bytes
  selections_lt : selections.length < 2 ^ 32
  digest_lt : digest.length < 2 ^ 16
  digests_lt : digests.length + 1 < 2 ^ 32

/-- The counter, TPML_PCR_SELECTION and TPML_DIGEST. -/
def PcrReadResponse.marshal (r : PcrReadResponse) : Bytes :=
  response TPM2_ST_NO_SESSIONS (beBytes 4 r.updateCounter.toNat ++ (beBytes 4 r.selections.length ++
    (r.selections.flatMap PcrSelection.marshal ++ (beBytes 4 (r.digests.length + 1) ++
      (writeTpm2b r.digest ++ r.digests.flatMap writeTpm2b)))))

theorem skipSelects_marshal (selections : List PcrSelection) (rest : Bytes) :
    skipSelects selections.length (selections.flatMap PcrSelection.marshal ++ rest) = some rest := by
  induction selections with
  | nil => rfl
  | cons selection selections ih =>
    have hselect : selection.select.length < 256 ^ 1 := selection.select_lt
    rw [List.length_cons, skipSelects, List.flatMap_cons, PcrSelection.marshal]
    simp only [List.append_assoc]
    rw [takeBytes_front (beBytes_length _ _)]
    simp only [Option.bind_eq_bind, Option.bind_some]
    rw [takeSized_front hselect, Option.bind_some, ih]

theorem firstDigest_marshal (r : PcrReadResponse) : firstDigest r.marshal = some r.digest := by
  have hcode : beNat (beBytes 4 0) = 0 := beNat_beBytes (by norm_num)
  have hselections : beNat (beBytes 4 r.selections.length) = r.selections.length :=
    beNat_beBytes (r.selections_lt.trans_le (by norm_num))
  have hdigests : beNat (beBytes 4 (r.digests.length + 1)) = r.digests.length + 1 :=
    beNat_beBytes (r.digests_lt.trans_le (by norm_num))
  have hdigest : r.digest.length < 256 ^ 2 := r.digest_lt.trans_le (by norm_num)
  unfold firstDigest PcrReadResponse.marshal response responseHeader
  rw [List.append_assoc, List.append_assoc, ← List.append_assoc (beBytes 2 _), takeBytes_front (by simp)]
  simp only [Option.bind_eq_bind, Option.bind_some, takeBytes_front (beBytes_length _ _), hcode, guard, if_true,
    Option.pure_def, hselections, skipSelects_marshal, hdigests, if_pos (Nat.succ_pos _), writeTpm2b, List.append_assoc,
    takeSized_front hdigest]

end PcrRead

section CreatePrimary

/-- A created key: its handle, the contents of TPM2B_PUBLIC, and what stands behind it in the response. -/
structure CreatedKey where
  handle : UInt32
  outPublic : Bytes
  creation : Bytes
  authorization : Bytes
  outPublic_ne : outPublic ≠ []
  outPublic_lt : outPublic.length < 2 ^ 16
  params_lt : (writeTpm2b outPublic ++ creation).length < 2 ^ 32

def CreatedKey.marshal (key : CreatedKey) : Bytes :=
  sessionResponse (beBytes 4 key.handle.toNat) (writeTpm2b key.outPublic ++ key.creation) key.authorization

theorem createdAk_marshal (key : CreatedKey) (outPublicKey : Bytes) :
    createdAk (some outPublicKey) key.marshal = .ok (key.handle.toNat, some (writeTpm2b key.outPublic)) := by
  obtain ⟨handle, outPublic, creation, authorization, hne, hlt, hparams⟩ := key
  dsimp only [CreatedKey.marshal]
  have hpos := List.length_pos_iff.mpr hne
  have hsize : (writeTpm2b outPublic ++ creation).length = 2 + outPublic.length + creation.length := by
    rw [List.length_append, writeTpm2b_length]
  generalize hresp : sessionResponse (beBytes 4 handle.toNat) (writeTpm2b outPublic ++ creation) authorization = resp
  rw [sessionResponse] at hresp
  have hlength : resp.length = 18 + ((writeTpm2b outPublic ++ creation).length + authorization.length) := by
    rw [← hresp, response_length]
    simp only [List.length_append, beBytes_length]
    omega
  have hcode : Windows.readU32 resp 6 = 0 := hresp ▸ response_code _ _
  have hhandle : Windows.readU32 resp 10 = handle.toNat := by
    rw [← hresp]
    exact @readU32_response _ _ _ [] _ rfl handle.toNat_lt
  have hparamSize : Windows.readU32 resp 14 = (writeTpm2b outPublic ++ creation).length := by
    rw [← hresp]
    exact readU32_response (by rw [beBytes_length]) hparams
  rw [← List.append_assoc] at hresp
  have hpublic : resp.drop 18 = writeTpm2b outPublic ++ (creation ++ authorization) := by
    rw [← hresp, ← List.append_assoc (writeTpm2b outPublic)]
    exact drop_response (by simp)
  have hpubSize : Windows.readU16 resp 18 = outPublic.length := by
    have hsplit : writeTpm2b outPublic ++ creation ++ authorization =
        beBytes 2 outPublic.length ++ (outPublic ++ (creation ++ authorization)) := by
      simp only [writeTpm2b, List.append_assoc]
    rw [← hresp, hsplit]
    exact readU16_response (by simp) hlt
  have hwrap : (18 + (writeTpm2b outPublic ++ creation).length) % 2 ^ 32 ≤ resp.length :=
    (Nat.mod_le _ _).trans (by omega)
  unfold createdAk
  rw [if_neg (by omega), readU32_ok (by omega), ok_bind, if_neg (not_not.mpr hcode), readU32_ok (by omega), ok_bind,
    if_pos ⟨rfl, by omega⟩, readU32_ok (by omega), ok_bind, hparamSize, if_pos ⟨by omega, hwrap⟩, readU16_ok (by omega),
    ok_bind, hpubSize, if_pos ⟨hpos, by omega⟩, readSlice_ok (by omega), ok_bind, hhandle, hpublic,
    ← writeTpm2b_length, List.take_left]
  rfl

end CreatePrimary

section Activation

/-- The responses of an activation: the session with its nonce, the policy, and the secret. -/
structure Activation where
  sessionHandle : UInt32
  nonceTpm : Bytes
  policyTicket : Bytes
  policyAuthorization : Bytes
  secret : Bytes
  authorization : Bytes
  secret_lt : secret.length < 2 ^ 16

def Activation.responses (a : Activation) : Nat → Bytes
  | 0 => response TPM2_ST_NO_SESSIONS (beBytes 4 a.sessionHandle.toNat ++ writeTpm2b a.nonceTpm)
  | 1 => sessionResponse [] a.policyTicket a.policyAuthorization
  | _ => sessionResponse [] (writeTpm2b a.secret) a.authorization

variable (a : Activation)

theorem startedSession_responses : Windows.startedSession (a.responses 0) = some a.sessionHandle.toNat := by
  have hlength : (a.responses 0).length = 14 + (writeTpm2b a.nonceTpm).length := by
    rw [Activation.responses, response_length, List.length_append, beBytes_length]
    omega
  have htag : Windows.readU16 (a.responses 0) 0 = 0x8001 := by
    rw [Activation.responses, response, responseHeader, List.append_assoc]
    exact readU16_append (a := []) rfl (by decide)
  have hcode : Windows.readU32 (a.responses 0) 6 = 0 := response_code _ _
  have hhandle : Windows.readU32 (a.responses 0) 10 = a.sessionHandle.toNat :=
    @readU32_response _ _ _ [] _ rfl a.sessionHandle.toNat_lt
  unfold Windows.startedSession
  rw [if_neg (by omega), if_neg (not_not.mpr hcode), htag,
    if_neg (by decide : ¬ (0x8001 : Nat) = 0x8002), if_neg (by omega), hhandle]

theorem succeeded_responses : Windows.succeeded (a.responses 1) = true := by
  have hlength : 10 ≤ (a.responses 1).length := by
    rw [Activation.responses, sessionResponse, response_length]
    exact Nat.le_add_right _ _
  have hcode : Windows.readU32 (a.responses 1) 6 = 0 := response_code _ _
  rw [Windows.succeeded, if_neg (not_lt.mpr hlength), hcode, decide_eq_true rfl]

theorem recoveredSecret_responses : recoveredSecret (a.responses 2) = .ok a.secret := by
  have hlt := a.secret_lt
  have hsize := writeTpm2b_length a.secret
  have hresp : a.responses 2 = response TPM2_ST_SESSIONS (beBytes 4 (writeTpm2b a.secret).length ++
      (beBytes 2 a.secret.length ++ (a.secret ++ a.authorization))) := by
    rw [Activation.responses, sessionResponse, List.nil_append, writeTpm2b, List.append_assoc]
    · intro h
      cases h
    · intro h
      cases h
  have hlength : (a.responses 2).length = 16 + (a.secret.length + a.authorization.length) := by
    rw [hresp, response_length]
    simp only [List.length_append, beBytes_length]
    omega
  have hcode : Windows.readU32 (a.responses 2) 6 = 0 := hresp ▸ response_code _ _
  have hparamSize : Windows.readU32 (a.responses 2) 10 = (writeTpm2b a.secret).length := by
    rw [hresp]
    exact @readU32_response _ _ _ [] _ rfl (by omega)
  have hsecretSize : Windows.readU16 (a.responses 2) 14 = a.secret.length := by
    rw [hresp]
    exact readU16_response (by rw [beBytes_length]) hlt
  have hsecret : (a.responses 2).drop 16 = a.secret ++ a.authorization := by
    rw [hresp, ← List.append_assoc]
    exact drop_response (by simp)
  have hwhole : ¬ CutBeforeSecret (a.responses 2) := by
    rintro ⟨-, hcut | hcut⟩ <;> omega
  rw [recoveredSecret_eq hwhole, Windows.recoveredSecret, if_neg (by omega), if_neg (not_not.mpr hcode), hparamSize,
    if_neg (by omega), hsecretSize]
  dsimp only
  rw [if_neg (by omega), hsecret, List.take_left]

/-- The session the commands name is the one the first response started. -/
theorem activateCredential_responses (akHandle ekHandle : UInt32) (credentialBlob encryptedSecret : Bytes) :
    activateCredential (some (replay a.responses)) akHandle ekHandle credentialBlob encryptedSecret [] =
      .ok (a.secret, flushedBehind a.sessionHandle.toNat
        [activateCredentialCommand akHandle ekHandle a.sessionHandle.toNat credentialBlob encryptedSecret,
          policySecretCommand a.sessionHandle.toNat, startAuthSessionCommand]) := by
  rw [@activateCredential_satisfied (replay a.responses) _ _ _ _ _ (startedSession_responses a) (succeeded_responses a)]
  rw [show replay a.responses 2 = fun _ => a.responses 2 from rfl, recoveredSecret_responses]
  rfl

end Activation

/-- Well-formed responses of code success are read as they were written. -/
theorem responses_read :
    (∀ (r : PcrReadResponse) (pcrIndex : Nat), pcrRead (some (replay fun _ => r.marshal)) pcrIndex [] =
      .ok (r.digest, [pcrReadCommand pcrIndex])) ∧
    (∀ (key : CreatedKey) (outPublicKey : Bytes),
      createAndLoadAk (some (replay fun _ => key.marshal)) (some outPublicKey) [] =
        .ok ((key.handle.toNat, some (writeTpm2b key.outPublic)), [createPrimaryCommand .owner])) ∧
    ∀ (a : Activation) (akHandle ekHandle : UInt32) (credentialBlob encryptedSecret : Bytes),
      activateCredential (some (replay a.responses)) akHandle ekHandle credentialBlob encryptedSecret [] =
        .ok (a.secret, flushedBehind a.sessionHandle.toNat
          [activateCredentialCommand akHandle ekHandle a.sessionHandle.toNat credentialBlob encryptedSecret,
            policySecretCommand a.sessionHandle.toNat, startAuthSessionCommand]) := by
  refine ⟨fun r pcrIndex => ?_, fun key outPublicKey => ?_, activateCredential_responses⟩
  · rw [pcrRead_run, replay, Windows.pcrReadValue_eq, firstDigest_marshal]
    rfl
  · rw [createAndLoadAk_run, replay, createdAk_marshal]
    rfl

end RootHerald.Windows.Wire
