import RootHerald.Windows.EnrollmentSteps

/-! What the enrollment calls keep of the TPM: contexts that are not open yet hold nothing, and the TPM
opens the same credentials. -/
namespace RootHerald.Windows
open Lib

section Exchanges

/-- Contexts that are not open yet hold nothing. -/
def Tpm.Numbered (t : Tpm) : Prop := ∀ context, t.contexts ≤ context → ∀ handle, t.objects.lookup (context, handle) = none

/-- The first n contexts are open, the TPM is numbered, and this is what it opens. -/
structure Ready (opens : Key → Key → Bytes → Bytes → Option Bytes) (n : Nat) (w : World) : Prop where
  numbered : w.tpm.Numbered
  openCredential : w.tpm.openCredential = opens
  contexts : n ≤ w.tpm.contexts

/-- One of the first n contexts, if it is open. -/
def Within (n : Nat) (tpm : TpmCommands) : Prop := ∀ context ∈ tpm, context < n

variable {opens : Key → Key → Bytes → Bytes → Option Bytes} {n : Nat} {tpm : TpmCommands} {w w' : World}

theorem Ready.mono {n' : Nat} (h : Ready opens n' w) (hle : n ≤ n') : Ready opens n w :=
  ⟨h.numbered, h.openCredential, hle.trans h.contexts⟩

/-- Nothing but the log and the slot changed. -/
private theorem Ready.same (h : Ready opens n w) (hobjects : w'.tpm.objects = w.tpm.objects)
    (hcontexts : w'.tpm.contexts = w.tpm.contexts) (hopens : w'.tpm.openCredential = w.tpm.openCredential) :
    Ready opens n w' where
  numbered := by
    rw [Tpm.Numbered, hobjects, hcontexts]
    exact h.numbered
  openCredential := hopens.trans h.openCredential
  contexts := hcontexts ▸ h.contexts

/-- Objects that are dropped. -/
private theorem Ready.filter (h : Ready opens n w) {keep : (Context × Handle) × Key → Bool}
    (htpm : w'.tpm = { w.tpm with objects := w.tpm.objects.filter keep }) : Ready opens n w' where
  numbered context hle handle := by
    rw [htpm] at hle ⊢
    refine List.lookup_eq_none_iff.mpr fun o ho => ?_
    exact List.lookup_eq_none_iff.mp (h.numbered context hle handle) o (List.mem_filter.mp ho).1
  openCredential := by
    rw [htpm]
    exact h.openCredential
  contexts := by
    rw [htpm]
    exact h.contexts

private theorem Ready.create (h : Ready opens n w) {hierarchy : Hierarchy} {context : Context} {handle : Handle} {key : Key}
    (hcontext : context < n) (htpm : w'.tpm = w.tpm.create hierarchy context handle key) : Ready opens n w' where
  numbered context' hle handle' := by
    rw [htpm] at hle ⊢
    have hne : context' ≠ context := Nat.ne_of_gt (hcontext.trans_le (h.contexts.trans hle))
    exact ((Local.create hierarchy context w.tpm handle key).objects context' hne handle').trans
      (h.numbered context' hle handle')
  openCredential := by
    rw [htpm]
    exact h.openCredential
  contexts := by
    rw [htpm]
    exact h.contexts

theorem Exchange.ready {context : Context} {cmd : Command} {resp : Bytes} (h : Exchange context cmd w.tpm resp w'.tpm)
    (hcontext : context < n) (hready : Ready opens n w) : Ready opens n w' := by
  generalize htpm : w'.tpm = t' at h
  cases h with
  | failed _ => exact hready.same (by rw [htpm]) (by rw [htpm]) (by rw [htpm])
  | executed _ hexec =>
    cases cmd with
    | createPrimary hierarchy =>
      obtain ⟨-, rfl, -⟩ := execute_createPrimary hexec
      exact hready.create hcontext htpm
    | startAuthSession =>
      obtain ⟨-, rfl, -⟩ := execute_startAuthSession hexec
      exact hready.same (by rw [htpm]) (by rw [htpm]) (by rw [htpm])
    | policySecret _ =>
      obtain ⟨-, rfl⟩ := Prod.mk.inj (Option.some.inj hexec)
      exact hready.same (by rw [htpm]) (by rw [htpm]) (by rw [htpm])
    | activateCredential _ _ _ _ _ =>
      obtain ⟨_, _, _, -, -, rfl, -⟩ := execute_activateCredential hexec
      exact hready.same (by rw [htpm]; rfl) (by rw [htpm]; rfl) (by rw [htpm]; rfl)
    | flushContext handle =>
      obtain ⟨-, rfl⟩ := Prod.mk.inj (Option.some.inj hexec)
      split_ifs at htpm
      · exact hready.filter htpm
      · exact hready.same (by rw [htpm]) (by rw [htpm]) (by rw [htpm])
    | readPublic handle =>
      obtain ⟨_, -, heq⟩ := Option.map_eq_some_iff.mp hexec
      obtain ⟨-, rfl⟩ := Prod.mk.inj heq
      exact hready.same (by rw [htpm]) (by rw [htpm]) (by rw [htpm])
    | evictControl handle persistentHandle =>
      obtain ⟨hobjects, hcontexts, hopens⟩ := execute_evictControl hexec
      exact hready.same (by rw [htpm, hobjects]) (by rw [htpm, hcontexts]) (by rw [htpm, hopens])

theorem sendCommand_ready (htpm : Within n tpm) (cmd : Command) :
    Triple (Ready opens n) (sendCommand tpm cmd) fun _ => Ready opens n := by
  cases tpm with
  | none => exact .pure fun _ h => h
  | some context => exact fun w h => (sendCommand_exchange (some context) cmd w.tpm w rfl).ready (htpm context rfl) h

end Exchanges

section Providers
variable {opens : Key → Key → Bytes → Bytes → Option Bytes} {n : Nat} {tpm : TpmCommands}

theorem createEk_ready (htpm : Within n tpm) : Triple (Ready opens n) (createEk tpm) fun _ => Ready opens n :=
  .bind (sendCommand_ready htpm _) fun _ => .ite (fun _ => .pure fun _ h => h) fun _ =>
    .ite (fun _ => .pure fun _ h => h) fun _ => .pure fun _ h => h

theorem createAndLoadAk_ready (htpm : Within n tpm) :
    Triple (Ready opens n) (createAndLoadAk tpm) fun _ => Ready opens n :=
  .bind (sendCommand_ready htpm _) fun _ => .ite (fun _ => .pure fun _ h => h) fun _ =>
    .ite (fun _ => .pure fun _ h => h) fun _ => .pure fun _ h => h

theorem flushHandle_ready (htpm : Within n tpm) (handle : Handle) :
    Triple (Ready opens n) (flushHandle tpm handle) fun _ => Ready opens n :=
  .ite (fun _ => .bind (sendCommand_ready htpm _) fun _ => .pure fun _ h => h) fun _ => .pure fun _ h => h

theorem tpmClose_ready : Triple (Ready opens n) (tpmClose tpm) fun _ => Ready opens n := by
  cases tpm with
  | none => exact .pure fun _ h => h
  | some context => exact .update fun w h => h.filter rfl

theorem activateInSession_ready (htpm : Within n tpm) (akHandle ekHandle session : Handle) (cb es : Bytes) :
    Triple (Ready opens n) (activateInSession tpm akHandle ekHandle session cb es) fun _ => Ready opens n :=
  .bind (sendCommand_ready htpm _) fun _ => .ite (fun _ => .pure fun _ h => h) fun _ =>
    .ite (fun _ => .pure fun _ h => h) fun _ => .bind (sendCommand_ready htpm _) fun _ => .pure fun _ h => h

theorem activateCredential_ready (htpm : Within n tpm) (akHandle ekHandle : Handle) (cb es : Bytes) :
    Triple (Ready opens n) (activateCredential tpm akHandle ekHandle cb es) fun _ => Ready opens n := by
  refine .bind (sendCommand_ready htpm _) fun startResp => ?_
  cases startedSession startResp with
  | none => exact .pure fun _ h => h
  | some session =>
    exact .bind (activateInSession_ready htpm _ _ _ _ _) fun _ => .bind (flushHandle_ready htpm _) fun _ => .pure fun _ h => h

theorem evictControl_ready (htpm : Within n tpm) (handle persistentHandle : Handle) :
    Triple (Ready opens n) (evictControl tpm handle persistentHandle) fun _ => Ready opens n := by
  have hsend (cmd : Command) : Triple (Ready opens n) (sendCommand tpm cmd) fun _ => Ready opens n := sendCommand_ready htpm cmd
  refine .bind (Q := fun _ => Ready opens n) (.bind (.bind (hsend _) fun _ => .pure fun _ h => h) fun _ =>
    .ite (fun _ => ?_) fun _ => .pure fun _ h => h) fun _ => .ite (fun _ => ?_) fun _ => .pure fun _ h => h
  · exact .bind (hsend _) fun _ => .pure fun _ h => h
  · exact .bind (hsend _) fun _ => .pure fun _ h => h

variable {p : TbsKeyProvider}

theorem flushTransients_ready (hp : Within n p.tpm) :
    Triple (Ready opens n) p.flushTransients fun p' w => p'.tpm = p.tpm ∧ Ready opens n w :=
  .bind (flushHandle_ready hp _) fun _ => .bind (flushHandle_ready hp _) fun _ => .pure fun _ h => ⟨rfl, h⟩

theorem close_ready (hp : Within n p.tpm) : Triple (Ready opens n) p.close fun _ => Ready opens n :=
  .bind (flushTransients_ready hp) fun _ => tpmClose_ready.pre fun _ h => h.2

theorem createAk_ready (hp : Within n p.tpm) :
    Triple (Ready opens n) p.createAk fun r w => r.2.tpm = p.tpm ∧ Ready opens n w := by
  refine .bind (flushTransients_ready hp) fun p' => .assume (fun _ h => h.1) fun heq => ?_
  have hp' : Within n p'.tpm := heq ▸ hp
  refine .bind ((createEk_ready hp').pre fun _ h => h.2) fun ekHandle => .ite (fun _ => .pure fun _ h => ⟨heq, h⟩) fun _ => ?_
  refine .bind (createAndLoadAk_ready hp') fun (akHandle, akPubArea) => .ite (fun _ => ?_) fun _ => .pure fun _ h => ⟨heq, h⟩
  exact .bind (flushTransients_ready hp') fun p'' => .pure fun _ h => ⟨h.1.trans heq, h.2⟩

theorem persistAk_ready (hp : Within n p.tpm) :
    Triple (Ready opens n) p.persistAk fun r w => r.2.tpm = p.tpm ∧ Ready opens n w :=
  .ite (fun _ => .pure fun _ h => ⟨rfl, h⟩) fun _ => .bind (evictControl_ready hp _ _) fun _ =>
    .ite (fun _ => .bind (flushTransients_ready hp) fun _ => .pure fun _ h => h) fun _ => .pure fun _ h => ⟨rfl, h⟩

theorem provider_activate_ready (hp : Within n p.tpm) (cb es : Bytes) :
    Triple (Ready opens n) (p.activateCredential cb es) fun _ => Ready opens n :=
  .ite (fun _ => .pure fun _ h => h) fun _ => activateCredential_ready hp _ _ cb es

theorem openContext_ready : Triple (Ready opens n) (TbsKeyProvider.openContext {}) fun r w =>
    ∃ n', (n ≤ n' ∧ Within n' r.2.tpm) ∧ Ready opens n' w := by
  refine (Triple.observe openContext_opens).post fun (opened, p) w' ⟨w, h, hopen⟩ => ?_
  rcases hopen with ⟨-, rfl, hw⟩ | ⟨-, rfl, hw⟩
  · refine ⟨w.tpm.contexts + 1, ⟨h.contexts.trans (Nat.le_succ _), fun context hmem => ?_⟩, ?_⟩
    · exact Option.some.inj hmem ▸ Nat.lt_succ_self _
    · refine ⟨fun context hle handle => ?_, by rw [hw]; exact h.openCredential, by rw [hw]⟩
      rw [hw] at hle ⊢
      exact h.numbered context ((Nat.le_succ _).trans hle) handle
  · exact ⟨n, ⟨le_refl n, fun _ hmem => by cases hmem⟩, h.same (by rw [hw]) (by rw [hw]) (by rw [hw])⟩

end Providers

section Calls
variable {opens : Key → Key → Bytes → Bytes → Option Bytes} {n : Nat} {inFlight : InFlight} (sys : System)

theorem destroy_ready (hin : ∀ p ∈ inFlight, Within n p.tpm) :
    Triple (Ready opens n) (destroy inFlight) fun _ => Ready opens n := by
  cases inFlight with
  | none => exact .pure fun _ h => h
  | some p => exact close_ready (hin p rfl)

theorem rootHeraldEnrollBegin_ready (hin : ∀ p ∈ inFlight, Within n p.tpm) (outEnrollJson : Bool) (env : CallEnv) :
    Triple (Ready opens n) (rootHeraldEnrollBegin sys outEnrollJson env inFlight) fun _ => Ready opens n := by
  refine .ite (fun _ => .pure fun _ h => h) fun _ => .ite (fun _ => .pure fun _ h => h) fun _ => ?_
  cases gatherEkEnrollData sys.sha256 env.sources with
  | none => exact .pure fun _ h => h
  | some ek =>
    refine .bind openContext_ready fun (opened, p) => .witness fun n' => .assume (fun _ h => h.1) fun ⟨hle, hp⟩ =>
      Triple.weaken (H := Ready opens n') (K := fun _ => Ready opens n') ?_ (fun _ h => h.2) fun _ _ h => h.mono hle
    have hclose (r : EnrollStep) {p : TbsKeyProvider} (hp : Within n' p.tpm) :
        Triple (Ready opens n') (p.close >>= fun _ => Pure.pure r) fun _ => Ready opens n' :=
      .bind (close_ready hp) fun _ => .pure fun _ h => h
    have hdelete (r : EnrollStep) {p : TbsKeyProvider} (hp : Within n' p.tpm) :
        Triple (Ready opens n') (p.deleteAk >>= fun p => p.close >>= fun _ => Pure.pure r) fun _ => Ready opens n' :=
      .bind (flushTransients_ready hp) fun p' => .assume (fun _ h => h.1) fun heq =>
        (hclose r (heq ▸ hp)).pre fun _ h => h.2
    refine .ite (fun _ => hclose _ hp) fun _ => .bind (createAk_ready hp) fun (created, p') =>
      .assume (fun _ h => h.1) fun heq => Triple.pre (H := Ready opens n') ?_ fun _ h => h.2
    have hp' : Within n' p'.tpm := heq ▸ hp
    refine .ite (fun _ => hclose _ hp') fun _ => .ite (fun _ => hdelete _ hp') fun _ => .ite (fun _ => hdelete _ hp') fun _ => ?_
    refine .bind (destroy_ready fun old hold context hmem => ?_) fun _ => .pure fun _ h => h
    exact (hin old hold context hmem).trans_le hle

theorem rootHeraldEnrollComplete_ready (hin : ∀ p ∈ inFlight, Within n p.tpm) (challengeJson : Option Bytes)
    (outActivateJson allocated : Bool) :
    Triple (Ready opens n) (rootHeraldEnrollComplete sys challengeJson outActivateJson allocated inFlight)
      fun _ => Ready opens n := by
  cases challengeJson with
  | none => exact .pure fun _ h => h
  | some challenge =>
    refine .ite (fun _ => .pure fun _ h => h) fun _ => ?_
    cases inFlight with
    | none => exact .pure fun _ h => h
    | some p =>
      have hp := hin p rfl
      refine .ite (fun _ => .pure fun _ h => h) fun _ => .bind (provider_activate_ready hp _ _) fun _ =>
        .ite (fun _ => ?_) fun _ => ?_
      · refine .bind (flushTransients_ready hp) fun p' => .assume (fun _ h => h.1) fun heq => ?_
        exact .bind ((close_ready (heq ▸ hp)).pre fun _ h => h.2) fun _ => .pure fun _ h => h
      · refine .bind (persistAk_ready hp) fun (persisted, p') => .assume (fun _ h => h.1) fun heq =>
          Triple.pre (H := Ready opens n) ?_ fun _ h => h.2
        have hp' : Within n p'.tpm := heq ▸ hp
        refine .ite (fun _ => .bind (close_ready hp') fun _ => .pure fun _ h => h) fun _ => .bind (close_ready hp') fun _ => ?_
        exact .ite (fun _ => .pure fun _ h => h) fun _ => .pure fun _ h => h

end Calls
end RootHerald.Windows
