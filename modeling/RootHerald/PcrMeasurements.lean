import RootHerald.Linux.AttestedLog
import RootHerald.Windows.ClientFacade
import RootHerald.Windows.EvidenceValues
import RootHerald.Windows.PcrResponses

/-! The values under pcrValues, in the evidence of Windows and in what Linux posts, against the digests
the TPM returned. -/
namespace RootHerald
open Lib Json

section Registers

/-- Name and value of each register under pcrValues. -/
def listedRegisters : Json → Option (List (Bytes × Bytes))
  | .object [(bank, .object registers)] =>
    if bank = text "sha256" then registers.mapM fun
      | (name, .string value) => some (name, value)
      | _ => none
    else none
  | _ => none

/-- Each value is a digest that was returned for the very register. -/
def Measured (returned : Nat → Bytes → Prop) (pcrValues : Json) : Prop :=
  ∃ listed, listedRegisters pcrValues = some listed ∧ ∀ register ∈ listed, ∃ index < 24, ∃ digest,
    register = (decimal index, hexEncode digest) ∧ returned index digest

theorem listedRegisters_map {ι : Type} (name value : ι → Bytes) (is : List ι) :
    listedRegisters (.object [(text "sha256", .object (is.map fun i => (name i, .string (value i))))]) =
      some (is.map fun i => (name i, value i)) := by
  rw [listedRegisters, if_pos rfl]
  induction is with
  | nil => rfl
  | cons i is ih => simp [List.mapM_cons, ih]

end Registers

section Windows
variable {sys : Windows.System} {respond : Nat → Bytes}

/-- Whatever else the call meets, evidence is handed out with an OK and lists measured values only. The
responses to TPM2_PCR_Read are any bytes. -/
def CollectMeasures (sys : Windows.System) (respond : Nat → Bytes) : Prop :=
  ∀ (nonceB64 : Option Bytes) (outEvidenceJson : Bool) (env : Windows.CollectEnv) (w : Windows.World) (out : Option Bytes),
    let env := { env with pcrRead := fun index => Windows.pcrReadValue (respond index) }
    ((Windows.rootHeraldCollectEvidence sys nonceB64 outEvidenceJson env).run w).1 = .ok (.ok, out) →
      ∃ nonce ev t pcrValues, nonceB64 = some nonce ∧ Windows.CollectedFrom sys env nonce ev ∧
        out = some (Windows.jsonBuild (Windows.evidenceFields ev)) ∧
        (Windows.evidenceFields ev).find? (text "pcrValues") = some t ∧ parse t = some pcrValues ∧
        Measured (fun index digest => Windows.firstDigest (respond index) = some digest) pcrValues

private theorem parse_pcrValuesJson (values : List (Nat × Bytes)) :
    parse (Windows.pcrValuesJson values) = some (Windows.pcrValuesMeant values) := by
  have hraw : Windows.jsonValue (Windows.pcrValuesJson values) = Windows.pcrValuesJson values := by
    rw [Windows.pcrValuesJson_eq, objectText, Windows.jsonValue_openBrace]
  have hlen : 3 ≤ (Windows.pcrValuesJson values).length := by
    rw [Windows.pcrValuesJson_eq]
    exact Nat.le_of_succ_le (Nat.le_of_succ_le (length_objectText List.mem_cons_self))
  refine (parse_iff hlen fun depth => ?_).mpr trivial
  rw [← hraw]
  exact Windows.pcrValues_exact depth values

private theorem find_pcrValues (ev : Windows.Evidence) :
    (Windows.evidenceFields ev).find? (text "pcrValues") = some (Windows.pcrValuesJson ev.pcrs) := by
  have hmem : (text "pcrValues", Windows.pcrValuesJson ev.pcrs) ∈ (Windows.evidenceFields ev).entries :=
    Windows.mem_evidenceFields.mpr (.inl (.inl (.inl (.inl (by simp)))))
  exact (findEntry_eq_some_iff (Windows.evidenceFields ev).sorted).mpr hmem

/-- PcrRead returns the digest or nothing, and nothing ends the collection. -/
theorem collect_measures (sys : Windows.System) (respond : Nat → Bytes) : CollectMeasures sys respond := by
  intro nonceB64 outEvidenceJson env w out env' hrun
  cases nonceB64 with
  | none => cases hrun
  | some nonce =>
    obtain ⟨json, rfl⟩ := Option.isSome_iff_exists.mp
      ((Windows.rootHeraldCollectEvidence_emits (P := fun _ => True) sys (some nonce) outEvidenceJson env' w trivial .ok
        out hrun).mpr rfl)
    obtain ⟨ev, hev, rfl⟩ :=
      Windows.rootHeraldCollectEvidence_text sys env' nonce outEvidenceJson w trivial .ok json hrun
    have hlisted : listedRegisters (Windows.pcrValuesMeant ev.pcrs) =
        some (ev.pcrs.map fun v => (decimal v.1, hexEncode v.2)) := by
      rw [Windows.pcrValuesMeant, listedRegisters_map (fun v : Nat × Bytes => decimal v.1) fun v => hexEncode v.2]
    refine ⟨nonce, ev, _, _, rfl, hev, rfl, find_pcrValues ev, parse_pcrValuesJson ev.pcrs, _, hlisted, ?_⟩
    obtain ⟨hpcrs, hread⟩ := Windows.readPcrs_eq_some hev.pcrs
    rw [hpcrs, List.map_map]
    refine List.forall_mem_map.mpr fun index hindex => ?_
    have hlt : index < 24 := (by decide : ∀ index ∈ Windows.evidencePcrs, index < 24) index hindex
    refine ⟨index, hlt, Windows.pcrReadValue (respond index), rfl, ?_⟩
    have hvalue := Windows.pcrReadValue_eq (respond index)
    cases hdigest : Windows.firstDigest (respond index) with
    | none =>
      rw [hdigest] at hvalue
      exact absurd hvalue (hread index hindex)
    | some digest =>
      rw [hdigest] at hvalue
      rw [hvalue]
      exact hdigest

end Windows

section Linux

/-- What Esys_PCR_Read answers for each register: the digests on success. A TPM2B_DIGEST holds 64 bytes. -/
structure PcrAnswers where
  digests : Nat → Option (List Bytes)
  capacity : ∀ index, ∀ ds ∈ digests index, ∀ digest ∈ ds, digest.length ≤ 64

def tpmPcrRead (pcrIndex : Nat) (pcrValues : Option (List Bytes)) (outDigestLen : Nat) : Option Bytes :=
  if 23 < pcrIndex then none
  else
    match pcrValues with
    | none => none
    | some [] => none
    | some (digest :: _) => if outDigestLen < digest.length then none else some digest

theorem tpmPcrRead_eq_some {pcrIndex outDigestLen : Nat} {pcrValues : Option (List Bytes)} {digest : Bytes} :
    tpmPcrRead pcrIndex pcrValues outDigestLen = some digest ↔
      pcrIndex ≤ 23 ∧ digest.length ≤ outDigestLen ∧ ∃ rest, pcrValues = some (digest :: rest) := by
  unfold tpmPcrRead
  split_ifs with hindex
  · simp [not_le.mpr hindex]
  · split
    · simp
    · simp
    · rename_i first rest
      by_cases hlen : outDigestLen < first.length
      · rw [if_pos hlen]
        apply iff_of_false (by simp)
        rintro ⟨-, hle, _, heq⟩
        cases heq
        omega
      · rw [if_neg hlen]
        constructor
        · intro heq
          cases heq
          exact ⟨by omega, by omega, rest, rfl⟩
        · rintro ⟨-, -, _, heq⟩
          cases heq
          rfl

/-- The registers of the evidence are read with these answers. -/
def PcrAnswers.evidence (answers : PcrAnswers) (e : Linux.Evidence) : Linux.Evidence := { e with
  pcrRead := fun index => tpmPcrRead index (answers.digests index) Linux.digestSize
  digest_le := fun _ _ hdigest => (tpmPcrRead_eq_some.mp hdigest).2.1 }

def PcrAnswers.Returned (answers : PcrAnswers) (index : Nat) (digest : Bytes) : Prop :=
  ∃ rest, answers.digests index = some (digest :: rest)

/-- Whatever else the call meets, a body that is posted lists measured values only. -/
def AttestMeasures (answers : PcrAnswers) (e : Linux.Evidence) : Prop :=
  ∀ (serverUrl sessionId nonceB64 : Option Linux.CString) (outInfo : Bool) (stack : Bytes) (reply : Linux.AttestReply)
    (w : Linux.World) (body : Bytes) (members : List (Bytes × Json)) (pcrValues : Json),
    ((Linux.rootHeraldAttestPost serverUrl sessionId nonceB64 outInfo stack reply (answers.evidence e)).run w).1 =
      some (.ok body) →
    parse body = some (.object members) → members.lookup (text "pcrValues") = some pcrValues →
      Measured answers.Returned pcrValues

private theorem lookup_pcrValues (sessionId : Bytes) (e : Linux.Evidence) :
    (Linux.bodyValue sessionId e).lookup (text "pcrValues") = some (Linux.pcrValue e) := by
  have hne : ∀ name ∈ [text "sessionId", text "quote"], (text "pcrValues" == name) = false := by
    decide
  simp only [List.forall_mem_cons] at hne
  simp only [Linux.bodyValue, List.lookup_cons, hne, BEq.rfl]

private theorem pcrIndices_decimal : ∀ index ∈ Linux.pcrIndices, ∀ index' < 24,
    decimal index = decimal index' → index = index' := by decide +kernel

/-- Zeros stand where no digest was returned. -/
theorem measured_pcrValue_iff (answers : PcrAnswers) (e : Linux.Evidence) :
    Measured answers.Returned (Linux.pcrValue (answers.evidence e)) ↔
      ∀ index ∈ Linux.pcrIndices, ∃ digest, answers.Returned index digest := by
  have hlisted := listedRegisters_map decimal (Linux.pcrHex (answers.evidence e)) Linux.pcrIndices
  constructor
  · rintro ⟨listed, hlisted', hmeasured⟩ index hindex
    obtain rfl := Option.some.inj (hlisted.symm.trans hlisted')
    obtain ⟨index', hlt, digest, hregister, hreturned⟩ := List.forall_mem_map.mp hmeasured index hindex
    obtain rfl := pcrIndices_decimal index hindex index' hlt (Prod.mk.inj hregister).1
    exact ⟨digest, hreturned⟩
  · intro h
    refine ⟨_, hlisted, List.forall_mem_map.mpr fun index hindex => ?_⟩
    obtain ⟨digest, rest, hdigests⟩ := h index hindex
    have hlt : index < 24 := (by decide : ∀ index ∈ Linux.pcrIndices, index < 24) index hindex
    have hread : (answers.evidence e).pcrRead index = some digest :=
      tpmPcrRead_eq_some.2 ⟨by omega, answers.capacity index _ hdigests digest List.mem_cons_self, rest, hdigests⟩
    refine ⟨index, hlt, digest, ?_, rest, hdigests⟩
    rw [Linux.pcrHex, hread]

theorem attest_measures_iff (answers : PcrAnswers) (e : Linux.Evidence) :
    AttestMeasures answers e ↔ ∀ index ∈ Linux.pcrIndices, ∃ digest, answers.Returned index digest := by
  rw [← measured_pcrValue_iff answers e]
  constructor
  · intro h
    have hplain : ∀ c ∈ Linux.someString.chars, isPlain c := by decide
    have hfits := Linux.bodyText_length hplain (by decide) (answers.evidence e)
    obtain ⟨hbody, hobject⟩ := Linux.attestBody_fits (by decide) hfits
    refine h (some Linux.someString) (some Linux.someString) (some Linux.someString) true [0, 0, 0] ⟨0, [], [], [], []⟩
      { codes := List.replicate 5 true } _ _ _ ?_ hobject (lookup_pcrValues _ _)
    rw [Linux.rootHeraldAttestPost_run, if_pos (Linux.rootHeraldAttest_posts Linux.someString), hbody]
  · intro h serverUrl sessionId nonceB64 outInfo stack reply w body members pcrValues hpost hobject hlookup
    cases sessionId with
    | none =>
      have hnone : ((Linux.rootHeraldAttestPost serverUrl none nonceB64 outInfo stack reply (answers.evidence e)).run w).1 =
          if ((Linux.rootHeraldAttest serverUrl none nonceB64 outInfo stack reply).run w).1.posted then none else none :=
        rfl
      rw [hnone, ite_self] at hpost
      cases hpost
    | some sessionId =>
      rw [Linux.rootHeraldAttestPost_run] at hpost
      obtain ⟨-, hbody⟩ := Option.ite_none_right_eq_some.mp hpost
      obtain ⟨rfl, -, -⟩ := Linux.attestBody_object (Option.some.inj hbody) hobject
      rw [lookup_pcrValues] at hlookup
      exact Option.some.inj hlookup ▸ h

end Linux

section Contract

/-- For every behaviour of the TPM both drivers list measured values only, exactly if each read that
Attest makes is answered with a digest. -/
theorem no_measurement_made_up_iff (sys : Windows.System) (respond : Nat → Bytes) (answers : PcrAnswers)
    (e : Linux.Evidence) : CollectMeasures sys respond ∧ AttestMeasures answers e ↔
      ∀ index ∈ Linux.pcrIndices, ∃ digest, answers.Returned index digest := by
  rw [attest_measures_iff]
  exact and_iff_right (collect_measures sys respond)

/-- A TPM on which the read of PCR 7 fails. -/
def sevenUnread : PcrAnswers where
  digests := fun index => if index = 7 then none else some [List.replicate 32 0xA5]
  capacity := fun index ds hds digest hdigest => by
    split_ifs at hds with hseven
    · cases hds
    · obtain rfl := Option.some.inj hds
      obtain rfl := List.mem_singleton.mp hdigest
      exact (List.length_replicate (n := 32)).le.trans (by decide)

private theorem nil_length_le (n : Nat) : ([] : Bytes).length ≤ n := Nat.zero_le n

private theorem none_digest_le : ∀ i, ∀ digest ∈ (fun _ => none : Nat → Option Bytes) i,
    digest.length ≤ Linux.digestSize := fun _ _ h => by cases h

/-- Evidence without an event log. -/
def bareEvidence : Linux.Evidence where
  quoted := []
  signature := []
  pcrRead := fun _ => none
  opens := false
  measurements := []
  quoted_le := nil_length_le Linux.quotedSize
  signature_le := nil_length_le Linux.signatureSize
  digest_le := none_digest_le

theorem zeros_made_up : ¬ ∀ (sys : Windows.System) (respond : Nat → Bytes) (answers : PcrAnswers) (e : Linux.Evidence),
    CollectMeasures sys respond ∧ AttestMeasures answers e := by
  intro h
  obtain ⟨digest, rest, hdigests⟩ := (attest_measures_iff sevenUnread bareEvidence).mp
    (h Windows.sampleSystem (fun _ => []) sevenUnread bareEvidence).2 7 (by decide)
  cases hdigests

end Contract
end RootHerald
