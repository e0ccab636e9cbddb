import RootHerald.Windows.EmittedJson
import RootHerald.Windows.PcrCommands

/-! A collection while other software extends PCRs: whether the values in the evidence are those the
quote was taken over. -/
namespace RootHerald.Windows
open Lib SharedState

section Collection

/-- What happens in one collection: the extends of other software ahead of each command, what becomes of
the commands, and what the TPM puts into the quote of its own. -/
structure PcrRun where
  bank : PcrBank
  beforeRead : Nat → List (Nat × Digest)
  beforeQuote : List (Nat × Digest)
  readDelivery : Nat → Delivery
  quoteDelivery : Delivery
  qualifiedSigner : Bytes
  clock : Bytes
  signature : Bytes

namespace PcrRun
variable (sha256 : Bytes → Digest) (run : PcrRun)

/-- The extends ahead of the read of a PCR. -/
def untilRead (pcrIndex : Nat) : List (Nat × Digest) :=
  (evidencePcrs.takeWhile (· ≠ pcrIndex) ++ [pcrIndex]).flatMap run.beforeRead

/-- The extends between the read of a PCR and the quote. -/
def behindRead (pcrIndex : Nat) : List (Nat × Digest) :=
  (evidencePcrs.dropWhile (· ≠ pcrIndex)).tail.flatMap run.beforeRead ++ run.beforeQuote

def bankAtRead (pcrIndex : Nat) : PcrBank := run.bank.extended sha256 (run.untilRead pcrIndex)

def bankAtQuote : PcrBank := run.bank.extended sha256 (evidencePcrs.flatMap run.beforeRead ++ run.beforeQuote)

def pcrRead (pcrIndex : Nat) : Bytes :=
  pcrReadValue ((run.readDelivery pcrIndex).response 0x8001 (pcrReadParams (run.bankAtRead sha256 pcrIndex) pcrIndex))

def attest (nonce : Bytes) : Attest where
  qualifiedSigner := run.qualifiedSigner
  extraData := nonce
  clock := run.clock
  pcrSelect := evidencePcrs
  pcrDigest := (run.bankAtQuote sha256).digest sha256 evidencePcrs

/-- A structure that does not fit a TPM2B is not quoted. -/
def quoteOver (nonce : Bytes) : Option (Bytes × Bytes) :=
  quoteResult (if (run.attest sha256 nonce).marshal.length < 2 ^ 16 then
    run.quoteDelivery.response 0x8002 (quoteParams (run.attest sha256 nonce) run.signature)
  else refusal 0)

/-- The environment of the call. -/
def env (env : CollectEnv) : CollectEnv := { env with pcrRead := run.pcrRead sha256, quoteOver := run.quoteOver sha256 }

/-- No selected PCR has another value at the quote than when it was read: the extends in between give
the same value again. -/
def Undisturbed : Prop := ∀ idx ∈ evidencePcrs,
  after (extendValue sha256) ((run.bankAtRead sha256 idx).value idx) (own idx (run.behindRead idx)) =
    (run.bankAtRead sha256 idx).value idx

instance : Decidable (run.Undisturbed sha256) := inferInstanceAs (Decidable (∀ idx ∈ evidencePcrs, _))

end PcrRun

/-- The values in the evidence are those of the bank, and the quoted digest is the one of the values. -/
structure Attested (sha256 : Bytes → Digest) (bank : PcrBank) (ev : Evidence) : Prop where
  values : ev.pcrs = evidencePcrs.map fun idx => (idx, (bank.value idx).bytes)
  digest : quotedPcrDigest ev.quoted = (sha256 (ev.pcrs.flatMap Prod.snd)).bytes

end Collection

section Values
variable {sha256 : Bytes → Digest} {run : PcrRun}

theorem Digest.ext {d d' : Digest} (h : d.bytes = d'.bytes) : d = d' := by
  obtain ⟨_, _⟩ := d
  obtain ⟨_, _⟩ := d'
  cases h
  rfl

theorem readPcrs_eq_some {pcrRead : Nat → Bytes} {pcrs : List Nat} {values : List (Nat × Bytes)}
    (h : readPcrs pcrRead pcrs = some values) :
    values = pcrs.map (fun idx => (idx, pcrRead idx)) ∧ ∀ idx ∈ pcrs, pcrRead idx ≠ [] := by
  induction pcrs generalizing values with
  | nil => exact ⟨(Option.some.inj h).symm, fun _ hmem => by cases hmem⟩
  | cons idx pcrs ih =>
    rw [readPcrs] at h
    split_ifs at h with hnil
    obtain ⟨rest, hrest, rfl⟩ := Option.map_eq_some_iff.mp h
    obtain ⟨rfl, hread⟩ := ih hrest
    exact ⟨rfl, List.forall_mem_cons.mpr ⟨hnil, hread⟩⟩

private theorem evidencePcrs_split : ∀ idx ∈ evidencePcrs, idx < 24 ∧
    (evidencePcrs.takeWhile (· ≠ idx) ++ [idx]) ++ (evidencePcrs.dropWhile (· ≠ idx)).tail = evidencePcrs := by decide

private theorem selectedPcrs_evidencePcrs : selectedPcrs evidencePcrs = evidencePcrs := by decide

/-- The value at the quote, from the value that was read. -/
theorem PcrRun.bankAtQuote_value {idx : Nat} (hidx : idx ∈ evidencePcrs) : (run.bankAtQuote sha256).value idx =
    after (extendValue sha256) ((run.bankAtRead sha256 idx).value idx) (own idx (run.behindRead idx)) := by
  have hsplit : evidencePcrs.flatMap run.beforeRead ++ run.beforeQuote = run.untilRead idx ++ run.behindRead idx := by
    rw [untilRead, behindRead, ← List.append_assoc, ← List.flatMap_append, (evidencePcrs_split idx hidx).2]
  rw [← Cells.afterAll_cell, bankAtRead, PcrBank.extended, ← Cells.afterAll_append, ← hsplit]
  rfl

theorem PcrRun.quoteOver_digest {nonce quoted signature : Bytes} (h : run.quoteOver sha256 nonce = some (quoted, signature)) :
    quotedPcrDigest quoted = ((run.bankAtQuote sha256).digest sha256 evidencePcrs).bytes := by
  unfold quoteOver at h
  split_ifs at h with hlt
  · have hquoted : quoted = (run.attest sha256 nonce).marshal := quoteResult_response hlt _ _ _ _ h
    rw [hquoted, quotedPcrDigest_marshal]
    rfl
  · have hfails := refusal_fails 0 (refusal 0).length
    rw [List.take_length] at hfails
    rw [quoteResult_fails hfails] at h
    cases h

/-- A successful collection reports, for each PCR, the value it had when it was read. -/
theorem CollectedFrom.pcrs_eq {sys : System} {env : CollectEnv} {nonceB64 : Bytes} {ev : Evidence}
    (h : CollectedFrom sys (run.env sha256 env) nonceB64 ev) :
    ev.pcrs = evidencePcrs.map fun idx => (idx, ((run.bankAtRead sha256 idx).value idx).bytes) := by
  obtain ⟨hpcrs, hread⟩ := readPcrs_eq_some h.pcrs
  refine hpcrs.trans (List.map_congr_left fun idx hidx => ?_)
  obtain hnil | hvalue := pcrReadValue_response (run.bankAtRead sha256 idx) (evidencePcrs_split idx hidx).1 0x8001
    (run.readDelivery idx)
  · exact absurd hnil (hread idx hidx)
  · exact congrArg (idx, ·) hvalue

/-- The values a successful collection reports are the quoted ones exactly if no extend between the read
of a PCR and the quote left it with another value. -/
theorem evidence_attested_iff (sys : System) (sha256 : Bytes → Digest) (run : PcrRun) (env : CollectEnv) (nonceB64 : Bytes)
    (w : World) (json : Bytes)
    (h : ((rootHeraldCollectEvidence sys (some nonceB64) true (run.env sha256 env)).run w).1 = .ok (.ok, some json)) :
    ∃ ev, CollectedFrom sys (run.env sha256 env) nonceB64 ev ∧ json = jsonBuild (evidenceFields ev) ∧
      (Attested sha256 (run.bankAtQuote sha256) ev ↔ run.Undisturbed sha256) := by
  obtain ⟨ev, hev, hjson⟩ := rootHeraldCollectEvidence_text sys (run.env sha256 env) nonceB64 true w trivial .ok json h
  refine ⟨ev, hev, hjson, ?_⟩
  have hpcrs := hev.pcrs_eq
  constructor
  · intro hattested idx hidx
    rw [← PcrRun.bankAtQuote_value hidx]
    have hmaps := List.map_inj_left.mp (hpcrs.symm.trans hattested.values) idx hidx
    exact (Digest.ext (Prod.mk.inj hmaps).2).symm
  · intro hundisturbed
    have hvalues : ev.pcrs = evidencePcrs.map fun idx => (idx, ((run.bankAtQuote sha256).value idx).bytes) := by
      refine hpcrs.trans (List.map_congr_left fun idx hidx => ?_)
      rw [PcrRun.bankAtQuote_value hidx, hundisturbed idx hidx]
    refine ⟨hvalues, (PcrRun.quoteOver_digest hev.quote).trans ?_⟩
    rw [PcrBank.digest, selectedPcrs_evidencePcrs, hvalues, List.flatMap_map]

end Values
section Sample

/-- The last 32 bytes stand for the digest. -/
def evidenceSha256 (data : Bytes) : Digest where
  bytes := (data.reverse ++ List.replicate 32 0).take 32
  length_eq := by
    rw [List.length_take, List.length_append, List.length_replicate]
    omega

def sampleDigest (b : UInt8) : Digest := ⟨List.replicate 32 b, List.length_replicate⟩

/-- Commands that are executed, with one extend of PCR 7 ahead of its read and these ahead of the quote. -/
def samplePcrRun (beforeQuote : List (Nat × Digest)) : PcrRun where
  bank := { value := fun _ => sampleDigest 0, updateCounter := 0 }
  beforeRead := fun idx => if idx = 7 then [(7, sampleDigest 1)] else []
  beforeQuote := beforeQuote
  readDelivery := fun _ => .arrived 4096
  quoteDelivery := .arrived 4096
  qualifiedSigner := [0, 0xB]
  clock := List.replicate 25 0
  signature := [0, 0x14]

def sampleCollectEnv : CollectEnv where
  toCallEnv := sampleEnv
  pcrRead := fun _ => []
  quoteOver := fun _ => none
  eventLog := []
  deviceId := text "d"

def sampleNonce : Bytes := text "AAA="

def sampleEnrolledWorld : World where
  tpm := { openCredential := fun _ _ _ _ => none, persistent := some (sampleKey 2) }
  outcomes := List.replicate 4 answered

def handedOut : Checked (RootHeraldResult × Option Bytes) → Option Bytes
  | .ok (.ok, json) => json
  | _ => none

theorem handedOut_eq_some {r : Checked (RootHeraldResult × Option Bytes)} (h : (handedOut r).isSome = true) :
    ∃ json, r = .ok (.ok, some json) := by
  unfold handedOut at h
  split at h
  · obtain ⟨json, rfl⟩ := Option.isSome_iff_exists.mp h
    exact ⟨json, rfl⟩
  · cases h

def sampleEvidence (beforeQuote : List (Nat × Digest)) : Checked (RootHeraldResult × Option Bytes) :=
  ((rootHeraldCollectEvidence sampleSystem (some sampleNonce) true
    ((samplePcrRun beforeQuote).env evidenceSha256 sampleCollectEnv)).run sampleEnrolledWorld).1

/-- An extend ahead of the read does no harm. -/
theorem evidence_attested_sample : ∃ json ev, sampleEvidence [] = .ok (.ok, some json) ∧
    json = jsonBuild (evidenceFields ev) ∧ Attested evidenceSha256 ((samplePcrRun []).bankAtQuote evidenceSha256) ev := by
  obtain ⟨json, hjson⟩ := handedOut_eq_some (r := sampleEvidence []) (by decide +kernel)
  obtain ⟨ev, -, htext, hattested⟩ := evidence_attested_iff sampleSystem evidenceSha256 (samplePcrRun []) sampleCollectEnv
    sampleNonce sampleEnrolledWorld json hjson
  exact ⟨json, ev, hjson, htext, hattested.mpr (by decide)⟩

/-- An extend of PCR 7 between its read and the quote. -/
theorem evidence_not_attested :
    ¬ ∀ (sys : System) (sha256 : Bytes → Digest) (run : PcrRun) (env : CollectEnv) (nonceB64 : Bytes) (w : World) (json : Bytes),
      ((rootHeraldCollectEvidence sys (some nonceB64) true (run.env sha256 env)).run w).1 = .ok (.ok, some json) →
        ∃ ev, CollectedFrom sys (run.env sha256 env) nonceB64 ev ∧ json = jsonBuild (evidenceFields ev) ∧
          Attested sha256 (run.bankAtQuote sha256) ev := by
  intro h
  obtain ⟨json, hjson⟩ := handedOut_eq_some (r := sampleEvidence [(7, sampleDigest 2)]) (by decide +kernel)
  obtain ⟨ev, hev, -, hattested⟩ := h sampleSystem evidenceSha256 (samplePcrRun [(7, sampleDigest 2)]) sampleCollectEnv
    sampleNonce sampleEnrolledWorld json hjson
  have hvalues := hev.pcrs_eq.symm.trans hattested.values
  exact absurd hvalues (by decide)

end Sample
end RootHerald.Windows
