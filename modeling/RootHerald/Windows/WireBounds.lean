import RootHerald.Windows.NvCertificates
import RootHerald.Windows.WireRuns

/-! Which responses the client reads inside their bounds, for each call that parses some. -/
namespace RootHerald.Windows.Wire
open Lib

/-- A call of the client whose responses are parsed, with its arguments. -/
inductive Call where
  | pcrRead (pcrIndex : Nat)
  | quote (akHandle : UInt32) (nonce : Bytes) (pcrIndices : List Nat) (outSignature : Bytes)
  | createAndLoadAk (outPublicKey : Option Bytes)
  | createEk
  | activateCredential (akHandle ekHandle : UInt32) (credentialBlob encryptedSecret : Bytes)
  | readNvCertificate (nvIndex : UInt32)

/-- The call ends, and reads no byte behind a response. -/
def EndsInBounds (responses : Nat → Bytes) : Call → Prop
  | .pcrRead pcrIndex => ∃ r, pcrRead (some (replay responses)) pcrIndex [] = .ok r
  | .quote akHandle nonce pcrIndices outSignature =>
    ∃ r, quote (some (replay responses)) akHandle nonce pcrIndices outSignature [] = .ok r
  | .createAndLoadAk outPublicKey => ∃ r, createAndLoadAk (some (replay responses)) outPublicKey [] = .ok r
  | .createEk => ∃ r, createEk (some (replay responses)) [] = .ok r
  | .activateCredential akHandle ekHandle credentialBlob encryptedSecret => ∃ r,
    activateCredential (some (replay responses)) akHandle ekHandle credentialBlob encryptedSecret [] = .ok r
  | .readNvCertificate nvIndex => ∃ rounds r,
    readNvCertificate (some (replay responses)) nvIndex rounds [] = some (.ok r)

/-- No response that is read is cut where no length is checked: a TPM2B_PUBLIC the caller wants, and the
response to ActivateCredential behind those that lead to it. And the reads of an NV index come to a response
without data, or to an offset that is not below dataSize. -/
def Readable (responses : Nat → Bytes) : Call → Prop
  | .createAndLoadAk outPublicKey => outPublicKey.isSome → ¬ CutInPublic (responses 0)
  | .activateCredential _ _ _ _ =>
    (Windows.startedSession (responses 0)).isSome → Windows.succeeded (responses 1) → ¬ CutBeforeSecret (responses 2)
  | .readNvCertificate _ => ∀ dataSize, nvPublicSize (responses 0) = some dataSize →
    ∃ n, chunkAt responses n = none ∨ dataSize ≤ offsetBehind responses n
  | .pcrRead _ | .quote _ _ _ _ | .createEk => True

section Calls
variable {responses : Nat → Bytes}

private theorem map_ok_iff {α β : Type} {x : Checked α} {f : α → β} :
    (∃ r, x.map f = .ok r) ↔ ∃ a, x = .ok a := by
  cases x with
  | error e => exact iff_of_false (fun ⟨_, h⟩ => by cases h) fun ⟨_, h⟩ => by cases h
  | ok a => exact iff_of_true ⟨_, rfl⟩ ⟨_, rfl⟩

private theorem recoveredSecret_ok_iff {resp : Bytes} : (∃ secret, recoveredSecret resp = .ok secret) ↔
    ¬ CutBeforeSecret resp := by
  constructor
  · rintro ⟨secret, hsecret⟩ hcut
    cases hsecret.symm.trans (recoveredSecret_cut hcut)
  · intro h
    exact ⟨_, recoveredSecret_eq h⟩

private theorem activation_endsInBounds (akHandle ekHandle : UInt32) (credentialBlob encryptedSecret : Bytes) :
    EndsInBounds responses (.activateCredential akHandle ekHandle credentialBlob encryptedSecret) ↔
      ((Windows.startedSession (responses 0)).isSome → Windows.succeeded (responses 1) →
        ¬ CutBeforeSecret (responses 2)) := by
  rw [EndsInBounds]
  have hstart : ∀ cmd, replay responses 0 cmd = responses 0 := fun _ => rfl
  cases hstarted : Windows.startedSession (responses 0) with
  | none =>
    rw [activateCredential_unstarted (hstarted ▸ rfl)]
    exact iff_of_true ⟨_, rfl⟩ fun h => absurd h (by decide)
  | some sessionHandle =>
    cases hpolicy : Windows.succeeded (responses 1) with
    | false =>
      rw [activateCredential_refused hstarted hpolicy]
      exact iff_of_true ⟨_, rfl⟩ fun _ h => absurd h (by decide)
    | true =>
      rw [activateCredential_satisfied hstarted hpolicy, map_ok_iff]
      refine recoveredSecret_ok_iff.trans ⟨fun h _ _ => h, fun h => h rfl rfl⟩

/-- The reads before the first that ends the loop bring data, at offsets below dataSize. -/
private theorem first_ending {dataSize : Nat}
    (h : ∃ n, chunkAt responses n = none ∨ dataSize ≤ offsetBehind responses n) :
    ∃ n, (chunkAt responses n = none ∨ dataSize ≤ offsetBehind responses n) ∧
      (∀ i < n, (chunkAt responses i).isSome) ∧ ∀ i < n, offsetBehind responses i < dataSize := by
  classical
  refine ⟨Nat.find h, Nat.find_spec h, fun i hi => ?_, fun i hi => ?_⟩
  · exact Option.isSome_iff_ne_none.mpr fun hnone => Nat.find_min h hi (.inl hnone)
  · exact not_le.mp fun hle => Nat.find_min h hi (.inr hle)

private theorem reading_endsInBounds (nvIndex : UInt32) :
    EndsInBounds responses (.readNvCertificate nvIndex) ↔
      ∀ dataSize, nvPublicSize (responses 0) = some dataSize →
        ∃ n, chunkAt responses n = none ∨ dataSize ≤ offsetBehind responses n := by
  rw [EndsInBounds]
  simp only [readNvCertificate_eq, show replay responses 0 (nvReadPublicCommand nvIndex) = responses 0 from rfl]
  cases nvPublicSize (responses 0) with
  | none => exact iff_of_true ⟨0, _, rfl⟩ fun _ h => (by cases h)
  | some dataSize =>
    have hstart : Collected responses dataSize 0 { sent := [nvReadPublicCommand nvIndex] } := start_collected _
    constructor
    · rintro ⟨rounds, r, hloop⟩ _ hsome
      obtain rfl := Option.some.inj hsome
      obtain ⟨n, -, s, hs, hleave⟩ := Round.loop_eq_some_iff.mp hloop
      have h := Round.after_invariant hstart (fun _ _ _ => nvReadRound_collected) hs
      refine ⟨n, ?_⟩
      rcases nvReadRound_leave hleave with ⟨hdone, -⟩ | ⟨-, hnone, -⟩
      · exact .inr (h.readOffset ▸ hdone)
      · rw [replay, h.sent] at hnone
        exact .inl hnone
    · intro h
      obtain ⟨n, hends, hserved, hbelow⟩ := first_ending (h dataSize rfl)
      obtain ⟨s, hs, hcollected⟩ := collected_progress nvIndex hserved hbelow (nvReadPublicCommand nvIndex)
      have hleaves : ∃ r, nvReadRound (some (replay responses)) nvIndex dataSize s = .leave (.ok r) := by
        by_cases hdone : dataSize ≤ s.readOffset
        · exact ⟨_, nvReadRound_done hdone⟩
        have hnone : nvData (replay responses s.sent.length (roundCommand nvIndex dataSize s)) = none := by
          rw [replay, hcollected.sent]
          exact hends.resolve_right (hcollected.readOffset ▸ hdone)
        rw [nvReadRound_more (not_le.mp hdone), hnone]
        exact ⟨_, rfl⟩
      obtain ⟨r, hleave⟩ := hleaves
      exact ⟨_, r, Round.loop_eq_some_iff.mpr ⟨_, Nat.lt_succ_self _, s, hs, hleave⟩⟩

/-- Every call ends inside the responses exactly if they are readable by it. -/
theorem endsInBounds_iff (responses : Nat → Bytes) (call : Call) :
    EndsInBounds responses call ↔ Readable responses call := by
  cases call with
  | pcrRead pcrIndex => exact iff_of_true ⟨_, pcrRead_run pcrIndex⟩ trivial
  | quote akHandle nonce pcrIndices outSignature =>
    exact iff_of_true ⟨_, quote_run akHandle nonce pcrIndices outSignature⟩ trivial
  | createAndLoadAk outPublicKey =>
    rw [EndsInBounds, createAndLoadAk_run, map_ok_iff]
    exact createdAk_ok_iff outPublicKey
  | createEk =>
    refine iff_of_true ?_ trivial
    rw [EndsInBounds, createEk_run, map_ok_iff]
    exact createdEk_ok _
  | activateCredential akHandle ekHandle credentialBlob encryptedSecret =>
    exact activation_endsInBounds akHandle ekHandle credentialBlob encryptedSecret
  | readNvCertificate nvIndex => exact reading_endsInBounds nvIndex

/-- A session that starts, and an activation whose response ends behind its code. -/
def shortActivation : Nat → Bytes
  | 0 => response TPM2_ST_NO_SESSIONS (beBytes 4 0x03000000 ++ writeTpm2b [])
  | _ + 1 => response TPM2_ST_SESSIONS []

theorem endsInBounds_shortActivation : ¬ ∀ (responses : Nat → Bytes) (call : Call),
    (∀ i, (responses i).length ≤ 4096) → EndsInBounds responses call := by
  intro h
  have hlength : ∀ i, (shortActivation i).length ≤ 4096
    | 0 => by decide
    | _ + 1 => (by decide : (response TPM2_ST_SESSIONS []).length ≤ 4096)
  obtain ⟨r, hr⟩ := h shortActivation (.activateCredential 1 2 [] []) hlength
  have hcut : CutBeforeSecret (shortActivation 2) := ⟨not_or.mpr (by decide), .inl (by decide)⟩
  have hsession : Windows.startedSession (shortActivation 0) = some 0x03000000 := by decide
  have hpolicy : Windows.succeeded (shortActivation 1) = true := by decide
  rw [@activateCredential_satisfied (replay shortActivation) _ _ _ _ _ hsession hpolicy] at hr
  rw [show replay shortActivation 2 = fun _ => shortActivation 2 from rfl, recoveredSecret_cut hcut] at hr
  cases hr

end Calls
end RootHerald.Windows.Wire
