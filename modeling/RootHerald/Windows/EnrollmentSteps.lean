import RootHerald.Windows.CommandEffects
import RootHerald.Windows.Client

/-! What EnrollBegin and EnrollComplete do to the TPM and to the enrollment in flight. -/
namespace RootHerald.Windows
open Lib

section Locality

/-- The TPM differs in the objects of one context only, no slot was touched, and the log grew by es. -/
structure Local (context : Context) (es : List Event) (t t' : Tpm) : Prop where
  objects : ∀ c ≠ context, ∀ handle, t'.objects.lookup (c, handle) = t.objects.lookup (c, handle)
  persistent : t'.persistent = t.persistent
  contexts : t.contexts ≤ t'.contexts
  log : t'.log = es ++ t.log

private theorem lookup_filter {κ ν : Type} [BEq κ] [LawfulBEq κ] (q : κ → Bool) {k : κ} (hk : q k = true)
    (l : List (κ × ν)) : (l.filter fun o => q o.1).lookup k = l.lookup k := by
  induction l with
  | nil => rfl
  | cons o l ih =>
    rw [List.filter_cons, List.lookup_cons]
    by_cases hq : q o.1 = true
    · rw [if_pos hq, List.lookup_cons, ih]
    · have hne : k ≠ o.1 := fun heq => hq (heq ▸ hk)
      rw [if_neg hq, ih, beq_false_of_ne hne]

namespace Local
variable {context : Context} {es es' : List Event} {t t' t'' : Tpm}

theorem refl (context : Context) (t : Tpm) : Local context [] t t :=
  ⟨fun _ _ _ => rfl, rfl, le_refl _, rfl⟩

theorem trans (h : Local context es t t') (h' : Local context es' t' t'') : Local context (es' ++ es) t t'' where
  objects c hc handle := (h'.objects c hc handle).trans (h.objects c hc handle)
  persistent := h'.persistent.trans h.persistent
  contexts := h.contexts.trans h'.contexts
  log := by rw [h'.log, h.log, List.append_assoc]

theorem quiet (h : Local context es t t') (h' : Local context [] t' t'') : Local context es t t'' := h.trans h'

theorem flush (context : Context) (t : Tpm) (handle : Handle) : Local context [] t (t.flush context handle) where
  objects _ hc _ := lookup_filter (fun k => decide (k ≠ (context, handle)))
    (decide_eq_true fun heq => hc (Prod.mk.inj heq).1) t.objects
  persistent := rfl
  contexts := le_refl _
  log := rfl

theorem create (hierarchy : Hierarchy) (context : Context) (t : Tpm) (handle : Handle) (key : Key) :
    Local context [.created hierarchy key] t (t.create hierarchy context handle key) where
  objects c hc handle' := by
    have hne : (c, handle') ≠ (context, handle) := fun heq => hc (Prod.mk.inj heq).1
    rw [Tpm.create, List.lookup_cons, beq_false_of_ne hne]
  persistent := rfl
  contexts := le_refl _
  log := rfl

end Local

variable {context : Context} {es : List Event} {t : Tpm}

theorem flushHandle_local {tpm : TpmCommands} (htpm : contextOf tpm = context) (handle : Handle) :
    Triple (fun w => Local context es t w.tpm) (flushHandle tpm handle) fun _ w => Local context es t w.tpm := by
  subst htpm
  intro w h
  rcases flushHandle_flush tpm handle w.tpm w rfl with hsame | ⟨-, hflush⟩
  · rw [hsame]
    exact h
  · rw [hflush]
    exact h.quiet (.flush _ _ _)

theorem tpmClose_local {tpm : TpmCommands} (htpm : contextOf tpm = context) :
    Triple (fun w => Local context es t w.tpm) (tpmClose tpm) fun _ w => Local context es t w.tpm := by
  cases tpm with
  | none => exact .pure fun _ h => h
  | some c =>
    obtain rfl : c = context := htpm
    refine .update fun w h => Local.quiet h ⟨fun c' hc' handle => ?_, rfl, le_refl _, rfl⟩
    exact (lookup_filter (fun k => decide (k.1 ≠ c)) (k := (c', handle)) (decide_eq_true hc') w.tpm.objects)

theorem flushTransients_local {p : TbsKeyProvider} (hp : contextOf p.tpm = context) :
    Triple (fun w => Local context es t w.tpm) p.flushTransients fun p' w =>
      p' = { p with akHandle := 0, ekHandle := 0 } ∧ Local context es t w.tpm := by
  exact .bind (flushHandle_local hp _) fun _ => .bind (flushHandle_local hp _) fun _ => .pure fun _ h => ⟨rfl, h⟩

theorem close_local {p : TbsKeyProvider} (hp : contextOf p.tpm = context) :
    Triple (fun w => Local context es t w.tpm) p.close fun _ w => Local context es t w.tpm := by
  refine .bind (flushTransients_local hp) fun p' => .assume (fun _ h => h.1) fun hp' => ?_
  subst hp'
  exact (tpmClose_local hp).pre fun _ h => h.2

end Locality

section CreateAk

/-- Only primary keys were created. -/
def AllCreated (es : List Event) : Prop := ∀ e ∈ es, ∃ hierarchy key, e = .created hierarchy key

theorem AllCreated.nil : AllCreated [] := fun _ h => by cases h

theorem AllCreated.cons {es : List Event} (h : AllCreated es) (hierarchy : Hierarchy) (key : Key) :
    AllCreated (.created hierarchy key :: es) := by
  intro e he
  rcases List.mem_cons.mp he with rfl | he
  · exact ⟨hierarchy, key, rfl⟩
  · exact h e he

theorem AllCreated.append {es es' : List Event} (h : AllCreated es) (h' : AllCreated es') : AllCreated (es ++ es') :=
  fun e he => (List.mem_append.mp he).elim (h e) (h' e)

/-- The context of the provider holds an EK and an AK behind its handles, and it knows the public area
of the AK. -/
structure Holds (p : TbsKeyProvider) (context : Context) (ek ak : Key) (t : Tpm) : Prop where
  tpm : p.tpm = some context
  ekAt : t.objects.lookup (context, p.ekHandle) = some ek
  akAt : t.objects.lookup (context, p.akHandle) = some ak
  ekTransient : isTransient p.ekHandle = true
  akTransient : isTransient p.akHandle = true
  publicArea : p.akPubArea = ak.publicArea

variable {context : Context} {es : List Event} {t : Tpm}

private theorem lookup_create (hierarchy : Hierarchy) (t : Tpm) (handle : Handle) (key : Key) :
    (t.create hierarchy context handle key).objects.lookup (context, handle) = some key := by
  rw [Tpm.create, List.lookup_cons, beq_self_eq_true]

private theorem lookup_create_of_fresh {handle handle' : Handle} {key : Key} (hierarchy : Hierarchy) (key' : Key)
    (hfresh : t.Fresh context handle') (h : t.objects.lookup (context, handle) = some key) :
    (t.create hierarchy context handle' key').objects.lookup (context, handle) = some key := by
  have hne : (context, handle) ≠ (context, handle') := by
    intro heq
    rw [heq, hfresh.2] at h
    cases h
  rw [Tpm.create, List.lookup_cons, beq_false_of_ne hne, h]

theorem createEk_local : Triple (fun w => Local context [] t w.tpm) (createEk (some context)) fun handle w =>
    (handle = 0 ∧ ∃ es, AllCreated es ∧ Local context es t w.tpm) ∨
      (isTransient handle = true ∧ ∃ ek, w.tpm.objects.lookup (context, handle) = some ek ∧
        Local context [.created .endorsement ek] t w.tpm) := by
  refine (Triple.observe (createEk_creation (some context))).post fun handle w' ⟨w, h, publicArea, hc⟩ => ?_
  generalize w'.tpm = t' at hc
  cases hc with
  | refused => exact .inl ⟨rfl, [], .nil, h⟩
  | lost _ => exact .inl ⟨rfl, _, AllCreated.nil.cons _ _, h.trans (.create _ _ _ _ _)⟩
  | created hfresh _ => exact .inr ⟨hfresh.1, _, lookup_create _ _ _ _, h.trans (.create _ _ _ _ _)⟩

theorem createAndLoadAk_local {ekHandle : Handle} {ek : Key} :
    Triple (fun w => w.tpm.objects.lookup (context, ekHandle) = some ek ∧ Local context es t w.tpm)
      (createAndLoadAk (some context)) fun r w =>
        ((r.1 = 0 ∨ r.2 = []) ∧ ∃ es', AllCreated es' ∧ Local context (es' ++ es) t w.tpm) ∨
          (isTransient r.1 = true ∧ ∃ ak, w.tpm.objects.lookup (context, r.1) = some ak ∧ r.2 = ak.publicArea ∧
            w.tpm.objects.lookup (context, ekHandle) = some ek ∧ Local context (.created .owner ak :: es) t w.tpm) := by
  refine (Triple.observe (createAndLoadAk_creation (some context))).post fun (handle, publicArea) w' ⟨w, ⟨hek, h⟩, hc⟩ => ?_
  generalize w'.tpm = t' at hc
  cases hc with
  | refused => exact .inl ⟨.inl rfl, [], .nil, h⟩
  | lost _ => exact .inl ⟨.inl rfl, _, AllCreated.nil.cons _ _, h.trans (.create _ _ _ _ _)⟩
  | created hfresh hpub =>
    rcases hpub with hnil | hpub
    · exact .inl ⟨.inr hnil, _, AllCreated.nil.cons _ _, h.trans (.create _ _ _ _ _)⟩
    · exact .inr ⟨hfresh.1, _, lookup_create _ _ _ _, hpub, lookup_create_of_fresh _ _ hfresh hek,
        h.trans (.create _ _ _ _ _)⟩

/-- The AK and its EK are created, or some of the two and no more. -/
theorem createAk_holds {p : TbsKeyProvider} (hp : p.tpm = some context) :
    Triple (fun w => Local context [] t w.tpm) p.createAk fun r w =>
      r.2.tpm = some context ∧
        (r.1 = true → ∃ ek ak, Holds r.2 context ek ak w.tpm ∧
          Local context [.created .owner ak, .created .endorsement ek] t w.tpm) ∧
        ∃ es, AllCreated es ∧ Local context es t w.tpm := by
  refine .bind (flushTransients_local (by rw [hp]; rfl)) fun p' => .assume (fun _ h => h.1) fun hp' => ?_
  subst hp'
  dsimp only
  rw [hp]
  refine .bind (createEk_local.pre fun _ h => h.2) fun ekHandle => .ite (fun hzero => .pure fun w h => ?_) fun hne => ?_
  · rcases h with ⟨-, hes⟩ | ⟨htransient, -⟩
    · exact ⟨rfl, fun h => (by cases h), hes⟩
    · rw [hzero] at htransient
      exact absurd htransient (by decide)
  refine Triple.pre (H := fun w => ∃ ek, isTransient ekHandle = true ∧
    w.tpm.objects.lookup (context, ekHandle) = some ek ∧ Local context [.created .endorsement ek] t w.tpm)
    (.witness fun ek => .assume (fun _ h => h.1) fun hekTransient => ?_) fun w h => ?_
  · refine .bind (createAndLoadAk_local.pre fun _ h => h.2) fun (akHandle, akPubArea) =>
      .ite (fun hfail => ?_) fun hne => .pure fun w h => ?_
    · refine Triple.pre (H := fun w => ∃ es, AllCreated es ∧ Local context es t w.tpm)
        (.witness fun es => .assume (fun _ h => h.1) fun hes => ?_) fun w h => ?_
      · refine .bind ((flushTransients_local rfl).pre fun _ h => h.2) fun p' => .pure fun w h => ?_
        obtain ⟨rfl, h⟩ := h
        exact ⟨rfl, fun h => (by cases h), es, hes, h⟩
      · have hek : AllCreated [.created .endorsement ek] := AllCreated.nil.cons _ _
        rcases h with ⟨-, es', hes', hlocal⟩ | ⟨-, ak, -, -, -, hlocal⟩
        · exact ⟨_, hes'.append hek, hlocal⟩
        · exact ⟨_, hek.cons _ _, hlocal⟩
    · rcases h with ⟨hfail, -⟩ | ⟨hakTransient, ak, hak, hpub, hek, hlocal⟩
      · exact absurd hfail hne
      · exact ⟨rfl, fun _ => ⟨ek, ak, ⟨rfl, hek, hak, hekTransient, hakTransient, hpub⟩, hlocal⟩, _,
          (AllCreated.nil.cons _ _).cons _ _, hlocal⟩
  · rcases h with ⟨hzero, -⟩ | ⟨hekTransient, ek, hek, hlocal⟩
    · exact absurd hzero hne
    · exact ⟨ek, hekTransient, hek, hlocal⟩

end CreateAk

section Begin

theorem openContext_opens (t : Tpm) : Triple (fun w => w.tpm = t) (TbsKeyProvider.openContext {}) fun r w =>
    (r.1 = true ∧ r.2 = { tpm := some t.contexts } ∧ w.tpm = { t with contexts := t.contexts + 1 }) ∨
      (r.1 = false ∧ r.2 = {} ∧ w.tpm = t) := by
  refine .bind (Q := fun r w => (r.1 = true ∧ r.2 = some t.contexts ∧ w.tpm = { t with contexts := t.contexts + 1 }) ∨
    (r.1 = false ∧ r.2 = none ∧ w.tpm = t)) ?_ fun (opened, tpm) => .pure fun w h => ?_
  · refine .bind (Q := fun _ w => w.tpm = t) (fun w hw => (nextOutcome_tpm w).trans hw) fun outcome => ?_
    cases outcome with
    | unsent => exact .pure fun w h => .inr ⟨rfl, rfl, h⟩
    | refused _ => exact .pure fun w h => .inr ⟨rfl, rfl, h⟩
    | executed _ _ =>
      rintro w rfl
      exact .inl ⟨rfl, rfl, rfl⟩
  · rcases h with ⟨rfl, rfl, h⟩ | ⟨rfl, rfl, h⟩
    · exact .inl ⟨rfl, rfl, h⟩
    · exact .inr ⟨rfl, rfl, h⟩

/-- A new enrollment: its keys are the last two created, in a context of their own. -/
structure Began (p : TbsKeyProvider) (ek ak : Key) (t t' : Tpm) : Prop where
  holds : Holds p t.contexts ek ak t'
  log : t'.log = .created .owner ak :: .created .endorsement ek :: t.log
  persistent : t'.persistent = t.persistent
  contexts : t.contexts < t'.contexts

theorem Holds.of_local {p : TbsKeyProvider} {context context' : Context} {ek ak : Key} {es : List Event} {t t' : Tpm}
    (h : Holds p context ek ak t) (hlocal : Local context' es t t') (hne : context ≠ context') :
    Holds p context ek ak t' :=
  { h with ekAt := (hlocal.objects _ hne _).trans h.ekAt, akAt := (hlocal.objects _ hne _).trans h.akAt }

theorem Began.of_local {p : TbsKeyProvider} {ek ak : Key} {t t' t'' : Tpm} {context : Context} (h : Began p ek ak t t')
    (hlocal : Local context [] t' t'') (hne : t.contexts ≠ context) : Began p ek ak t t'' where
  holds := h.holds.of_local hlocal hne
  log := hlocal.log.trans h.log
  persistent := hlocal.persistent.trans h.persistent
  contexts := h.contexts.trans_le hlocal.contexts

theorem destroy_began {inFlight : InFlight} {p : TbsKeyProvider} {ek ak : Key} {t : Tpm}
    (hold : ∀ old ∈ inFlight, ∃ context < t.contexts, old.tpm = some context) :
    Triple (fun w => Began p ek ak t w.tpm) (destroy inFlight) fun _ w => Began p ek ak t w.tpm := by
  cases inFlight with
  | none => exact .pure fun _ h => h
  | some old =>
    obtain ⟨context, hlt, htpm⟩ := hold old rfl
    intro w h
    have hlocal := close_local (show contextOf old.tpm = context by rw [htpm]; rfl) w (.refl context w.tpm)
    exact h.of_local hlocal (ne_of_gt hlt)

/-- What EnrollBegin leaves: a new enrollment, or the one before it and some created keys. -/
def BeginOutcome (inFlight : InFlight) (t : Tpm) (r : EnrollStep) (t' : Tpm) : Prop :=
  (r.status = .ok ∧ ∃ data p ek ak, r.json = some (jsonBuild (buildEnrollFields data ak.publicArea)) ∧
      r.inFlight = some p ∧ Began p ek ak t t') ∨
    (r.status ≠ .ok ∧ r.inFlight = inFlight ∧ ∃ es, AllCreated es ∧ Local t.contexts es t t')

/-- At most created keys in the context a provider opens next. -/
def OnlyCreated (t t' : Tpm) : Prop := ∃ es, AllCreated es ∧ Local t.contexts es t t'

/-- Opening the context changes nothing else. -/
private theorem Local.of_opened {es : List Event} {t t' : Tpm}
    (h : Local t.contexts es { t with contexts := t.contexts + 1 } t') : Local t.contexts es t t' := by
  have hnew : Local t.contexts [] t { t with contexts := t.contexts + 1 } :=
    ⟨fun _ _ _ => rfl, rfl, Nat.le_succ _, rfl⟩
  exact List.append_nil es ▸ hnew.trans h

section Failing
variable {inFlight : InFlight} {t : Tpm} {status : RootHeraldResult} {p : TbsKeyProvider}

private theorem begin_kept (hstatus : status ≠ .ok) : Triple (fun w => OnlyCreated t w.tpm)
    (Pure.pure { status, inFlight } : Tbs EnrollStep) fun r w => BeginOutcome inFlight t r w.tpm :=
  .pure fun _ h => .inr ⟨hstatus, rfl, h⟩

private theorem begin_closed (hstatus : status ≠ .ok) (hp : contextOf p.tpm = t.contexts) :
    Triple (fun w => OnlyCreated t w.tpm) (p.close >>= fun _ => Pure.pure { status, inFlight }) fun r w =>
      BeginOutcome inFlight t r w.tpm := by
  refine .witness fun es => .assume (fun _ h => h.1) fun hes => ?_
  exact .bind ((close_local hp).pre fun _ h => h.2) fun _ => (begin_kept hstatus).pre fun _ h => ⟨es, hes, h⟩

private theorem begin_deleted (hstatus : status ≠ .ok) (hp : contextOf p.tpm = t.contexts) :
    Triple (fun w => OnlyCreated t w.tpm)
      (p.deleteAk >>= fun p => p.close >>= fun _ => Pure.pure { status, inFlight }) fun r w =>
        BeginOutcome inFlight t r w.tpm := by
  refine .witness fun es => .assume (fun _ h => h.1) fun hes => ?_
  refine .bind ((flushTransients_local hp).pre fun _ h => h.2) fun p' => .assume (fun _ h => h.1) fun hp' => ?_
  have hcontext : contextOf p'.tpm = t.contexts := by
    rw [hp']
    exact hp
  exact (begin_closed hstatus hcontext).pre fun _ h => ⟨es, hes, h.2⟩

end Failing

/-- What opening the context leaves, when it opens. -/
private theorem opened_context {t t' : Tpm} {opened : Bool} {p : TbsKeyProvider} (hopened : opened = true)
    (h : (opened = true ∧ p = { tpm := some t.contexts } ∧ t' = { t with contexts := t.contexts + 1 }) ∨
      (opened = false ∧ p = {} ∧ t' = t)) :
    p = { tpm := some t.contexts } ∧ t' = { t with contexts := t.contexts + 1 } := by
  rcases h with ⟨-, h⟩ | ⟨hclosed, -⟩
  · exact h
  · exact absurd (hclosed.symm.trans hopened) (by decide)

theorem rootHeraldEnrollBegin_outcome (sys : System) (outEnrollJson : Bool) (env : CallEnv) {inFlight : InFlight} {t : Tpm}
    (hold : ∀ old ∈ inFlight, ∃ context < t.contexts, old.tpm = some context) :
    Triple (fun w => w.tpm = t) (rootHeraldEnrollBegin sys outEnrollJson env inFlight) fun r w =>
      BeginOutcome inFlight t r w.tpm := by
  have hstart : ∀ w : World, w.tpm = t → OnlyCreated t w.tpm := fun w h => ⟨[], .nil, h ▸ .refl _ _⟩
  unfold rootHeraldEnrollBegin
  refine .ite (fun _ => (begin_kept (by decide)).pre hstart) fun _ => .ite (fun _ => (begin_kept (by decide)).pre hstart)
    fun _ => ?_
  cases gatherEkEnrollData sys.sha256 env.sources with
  | none => exact (begin_kept (by decide)).pre hstart
  | some ek =>
    refine .bind (openContext_opens t) fun (opened, provider) => .ite (fun hfail => ?_) fun hopened => ?_
    · rintro w (⟨hopened, -⟩ | ⟨-, hprovider, h⟩)
      · exact absurd hopened hfail
      · obtain rfl : provider = {} := hprovider
        exact begin_kept (by decide) w (hstart w h)
    refine .assume (fun w h => (opened_context (not_not.mp hopened) h).1) fun hprovider => Triple.pre (H := fun w =>
      Local t.contexts [] { t with contexts := t.contexts + 1 } w.tpm) ?_ fun w h =>
        (opened_context (not_not.mp hopened) h).2 ▸ .refl _ _
    subst hprovider
    refine .bind (createAk_holds rfl) fun (created, provider) => .assume (fun _ h => h.1) fun htpm => ?_
    have hcontext : contextOf provider.tpm = t.contexts := by
      rw [htpm]
      rfl
    have hcreatedOnly : ∀ {a b : Prop} {w : World}, a ∧ b ∧ (∃ es, AllCreated es ∧
        Local t.contexts es { t with contexts := t.contexts + 1 } w.tpm) → OnlyCreated t w.tpm :=
      fun ⟨_, _, es, hes, h⟩ => ⟨es, hes, h.of_opened⟩
    refine .ite (fun _ => (begin_closed (by decide) hcontext).pre fun _ => hcreatedOnly) fun hcreated => ?_
    refine .ite (fun _ => (begin_deleted (by decide) hcontext).pre fun _ => hcreatedOnly) fun _ => ?_
    refine .ite (fun _ => (begin_deleted (by decide) hcontext).pre fun _ => hcreatedOnly) fun _ => ?_
    refine Triple.pre (H := fun w => ∃ keys : Key × Key, provider.akPubArea = keys.2.publicArea ∧
      Began provider keys.1 keys.2 t w.tpm) (.witness fun keys => .assume (fun _ h => h.1) fun hpub => ?_) fun w h => ?_
    · refine .bind ((destroy_began hold).pre fun _ h => h.2) fun _ => .pure fun w h => .inl ⟨rfl, ?_⟩
      exact ⟨_, provider, keys.1, keys.2, by rw [hpub], rfl, h⟩
    · obtain ⟨ek, ak, hholds, h⟩ := h.2.1 (not_not.mp hcreated)
      exact ⟨(ek, ak), hholds.publicArea, hholds, h.log, h.persistent, h.contexts⟩

end Begin

section Complete

/-- An activation, and behind one that recovers a secret an eviction of the AK. -/
inductive Completion (p : TbsKeyProvider) (t : Tpm) : RootHeraldResult → Tpm → Prop
  | refused {t₁ t'} (hact : Activation (contextOf p.tpm) p.akHandle p.ekHandle t [] t₁)
      (hlocal : Local (contextOf p.tpm) [] t₁ t') : Completion p t .attestationFailed t'
  | activated {secret evicted status t₁ t₂ t'} (hsecret : secret ≠ [])
      (hact : Activation (contextOf p.tpm) p.akHandle p.ekHandle t secret t₁)
      (hevict : Eviction (contextOf p.tpm) p.akHandle t₁ evicted t₂) (hlocal : Local (contextOf p.tpm) [] t₂ t')
      (hstatus : if evicted then status = .ok ∨ status = .internal else status = .enrollmentFailed) :
      Completion p t status t'

variable (p : TbsKeyProvider) (t : Tpm)

theorem provider_activation (cb es : Bytes) : Triple (fun w => w.tpm = t) (p.activateCredential cb es) fun secret w =>
    Activation (contextOf p.tpm) p.akHandle p.ekHandle t secret w.tpm :=
  .ite (fun _ => .pure fun _ h => h ▸ .refused) fun _ => activateCredential_activation p.tpm _ _ cb es t

theorem persistAk_eviction : Triple (fun w => w.tpm = t) p.persistAk fun r w =>
    r.2.tpm = p.tpm ∧ ∃ t', Eviction (contextOf p.tpm) p.akHandle t r.1 t' ∧ Local (contextOf p.tpm) [] t' w.tpm := by
  refine .ite (fun _ => .pure fun w h => ⟨rfl, t, .kept, h ▸ .refl _ _⟩) fun _ => ?_
  refine .bind (evictControl_eviction p.tpm p.akHandle t) fun evicted => .ite (fun hevicted => ?_) fun hevicted => ?_
  · intro w h
    obtain ⟨hp', hlocal⟩ := flushTransients_local (p := p) rfl w (.refl _ w.tpm)
    exact ⟨(congrArg TbsKeyProvider.tpm hp' :), w.tpm, hevicted ▸ h, hlocal⟩
  · exact .pure fun w h => ⟨rfl, w.tpm, Bool.eq_false_iff.mpr hevicted ▸ h, .refl _ _⟩

theorem completeEnrollment_completion (sys : System) (deviceId credBlob encSecret : Bytes) (allocated : Bool) :
    Triple (fun w => w.tpm = t) (completeEnrollment sys deviceId credBlob encSecret allocated p) fun r w =>
      r.inFlight = none ∧ Completion p t r.status w.tpm := by
  refine .bind (provider_activation p t _ _) fun secret => .ite (fun hnil => ?_) fun hsecret => ?_
  · subst hnil
    refine Triple.pre (H := fun w => ∃ t₁, Activation (contextOf p.tpm) p.akHandle p.ekHandle t [] t₁ ∧
      Local (contextOf p.tpm) [] t₁ w.tpm) (.witness fun t₁ => .assume (fun _ h => h.1) fun hact => ?_)
      fun w h => ⟨w.tpm, h, .refl _ _⟩
    refine .bind ((flushTransients_local rfl).pre fun _ h => h.2) fun p' => .assume (fun _ h => h.1) fun hp' => ?_
    subst hp'
    exact .bind ((close_local rfl).pre fun _ h => h.2) fun _ => .pure fun _ hlocal => ⟨rfl, .refused hact hlocal⟩
  · refine Triple.pre (H := fun w => ∃ t₁, Activation (contextOf p.tpm) p.akHandle p.ekHandle t secret t₁ ∧
      w.tpm = t₁) (.witness fun t₁ => .assume (fun _ h => h.1) fun hact => ?_) fun w h => ⟨w.tpm, h, rfl⟩
    refine .bind ((persistAk_eviction p t₁).pre fun _ h => h.2) fun (persisted, p') =>
      .assume (fun _ h => h.1) fun hp' => ?_
    have hcontext : contextOf p'.tpm = contextOf p.tpm := congrArg contextOf hp'
    refine Triple.pre (H := fun w => ∃ t₂, Eviction (contextOf p.tpm) p.akHandle t₁ persisted t₂ ∧
      Local (contextOf p.tpm) [] t₂ w.tpm) (.witness fun t₂ => .assume (fun _ h => h.1) fun hevict => ?_) fun w h => h.2
    refine .ite (fun hfail => ?_) fun hpersisted => ?_
    · refine .bind ((close_local hcontext).pre fun _ h => h.2) fun _ => .pure fun _ hlocal => ⟨rfl, ?_⟩
      exact .activated hsecret hact hevict hlocal (by rw [if_neg hfail])
    · refine .bind ((close_local hcontext).pre fun _ h => h.2) fun _ => ?_
      have hdone : ∀ {status w}, status = RootHeraldResult.ok ∨ status = .internal →
          Local (contextOf p.tpm) [] t₂ (World.tpm w) → Completion p t status w.tpm := fun hstatus hlocal =>
        .activated hsecret hact hevict hlocal (by rwa [if_pos (not_not.mp hpersisted)])
      exact .ite (fun _ => .pure fun _ hlocal => ⟨rfl, hdone (.inr rfl) hlocal⟩) fun _ =>
        .pure fun _ hlocal => ⟨rfl, hdone (.inl rfl) hlocal⟩

/-- Without an enrollment in flight nothing is sent to the TPM. -/
theorem rootHeraldEnrollComplete_none (sys : System) (challengeJson : Option Bytes) (outActivateJson allocated : Bool)
    (w : World) : (rootHeraldEnrollComplete sys challengeJson outActivateJson allocated none).run w =
      ({ status := if challengeJson = none ∨ outActivateJson = false then .invalidParam else .notEnrolled,
         inFlight := none }, w) := by
  cases challengeJson with
  | none => rfl
  | some challenge =>
    cases outActivateJson with
    | false => rfl
    | true => rfl

/-- What EnrollComplete leaves of an enrollment in flight. -/
def CompleteOutcome (t : Tpm) (r : EnrollStep) (t' : Tpm) : Prop :=
  (r.status = .invalidParam ∧ r.inFlight = some p ∧ t' = t) ∨ (r.inFlight = none ∧ Completion p t r.status t')

theorem rootHeraldEnrollComplete_outcome (sys : System) (challengeJson : Option Bytes) (outActivateJson allocated : Bool) :
    Triple (fun w => w.tpm = t) (rootHeraldEnrollComplete sys challengeJson outActivateJson allocated (some p))
      fun r w => CompleteOutcome p t r w.tpm := by
  have hinvalid : Triple (fun w => w.tpm = t) (Pure.pure { status := .invalidParam, inFlight := some p } : Tbs EnrollStep)
      fun r w => CompleteOutcome p t r w.tpm := .pure fun _ h => .inl ⟨rfl, rfl, h⟩
  cases challengeJson with
  | none => exact hinvalid
  | some challenge =>
    refine .ite (fun _ => hinvalid) fun _ => .ite (fun _ => hinvalid) fun _ => ?_
    exact (completeEnrollment_completion p t sys _ _ _ allocated).post fun _ _ h => .inr h

end Complete

section Observers

/-- The contexts there were keep their objects, and neither the slot nor the log changes. -/
structure Untouched (t t' : Tpm) : Prop where
  objects : ∀ c < t.contexts, ∀ handle, t'.objects.lookup (c, handle) = t.objects.lookup (c, handle)
  persistent : t'.persistent = t.persistent
  contexts : t.contexts ≤ t'.contexts
  log : t'.log = t.log

theorem Untouched.refl (t : Tpm) : Untouched t t := ⟨fun _ _ _ => rfl, rfl, le_refl _, rfl⟩

theorem Untouched.of_local {context : Context} {t t' t'' : Tpm} (h : Untouched t t') (hlocal : Local context [] t' t'')
    (hle : t.contexts ≤ context) : Untouched t t'' where
  objects c hc handle := (hlocal.objects c (ne_of_lt (lt_of_lt_of_le hc hle)) handle).trans (h.objects c hc handle)
  persistent := hlocal.persistent.trans h.persistent
  contexts := h.contexts.trans hlocal.contexts
  log := hlocal.log.trans h.log

/-- A provider is opened in a new context, or not at all. -/
def OpenedIn (t : Tpm) (p : TbsKeyProvider) : Prop := p = {} ∨ ∃ context, t.contexts ≤ context ∧ p.tpm = some context

variable {t : Tpm}

theorem openContext_untouched : Triple (fun w => Untouched t w.tpm) (TbsKeyProvider.openContext {}) fun r w =>
    OpenedIn t r.2 ∧ Untouched t w.tpm := by
  refine (Triple.observe openContext_opens).post fun r w' ⟨w, h, hopen⟩ => ?_
  rcases hopen with ⟨-, hp, hw⟩ | ⟨-, hp, hw⟩
  · refine ⟨.inr ⟨w.tpm.contexts, h.contexts, by rw [hp]⟩, ?_⟩
    rw [hw]
    exact ⟨h.objects, h.persistent, h.contexts.trans (Nat.le_succ _), h.log⟩
  · rw [hw]
    exact ⟨.inl hp, h⟩

theorem close_untouched {p : TbsKeyProvider} (hp : OpenedIn t p) :
    Triple (fun w => Untouched t w.tpm) p.close fun _ w => Untouched t w.tpm := by
  rcases hp with rfl | ⟨context, hle, htpm⟩
  · exact fun _ h => h
  · exact fun w h => h.of_local (close_local (by rw [htpm]; rfl) w (.refl context w.tpm)) hle

theorem isPersistentPresent_untouched (tpm : TpmCommands) : Triple (fun w => Untouched t w.tpm)
    (isPersistentPresent tpm kTbsAkPersistentHandle) fun _ w => Untouched t w.tpm := by
  intro w h
  rw [(isPersistentPresent_presence tpm w.tpm w rfl).1]
  exact h

private theorem andAlso_untouched (opened : Bool) (tpm : TpmCommands) : Triple (fun w => Untouched t w.tpm)
    (andAlso opened (isPersistentPresent tpm kTbsAkPersistentHandle)) fun _ w => Untouched t w.tpm :=
  .ite (fun _ => isPersistentPresent_untouched tpm) fun _ => .pure fun _ h => h

theorem anyAkPresent_untouched : Triple (fun w => Untouched t w.tpm) anyAkPresent fun _ w => Untouched t w.tpm :=
  .bind openContext_untouched fun (opened, p) => .assume (fun _ h => h.1) fun hp =>
    .bind ((andAlso_untouched opened p.tpm).pre fun _ h => h.2) fun _ => .bind (close_untouched hp) fun _ =>
      .pure fun _ h => h

theorem rootHeraldGetStatus_untouched (sys : System) (outStatus pcpAvailable : Bool) (env : CallEnv) :
    Triple (fun w => Untouched t w.tpm) (rootHeraldGetStatus sys outStatus pcpAvailable env)
      fun _ w => Untouched t w.tpm :=
  .ite (fun _ => .pure fun _ h => h) fun _ => .bind anyAkPresent_untouched fun _ => .pure fun _ h => h

theorem selectEnrolledProvider_untouched : Triple (fun w => Untouched t w.tpm) selectEnrolledProvider fun p w =>
    (∀ provider ∈ p, OpenedIn t provider) ∧ Untouched t w.tpm := by
  refine .bind openContext_untouched fun (opened, p) => .assume (fun _ h => h.1) fun hp =>
    .bind ((andAlso_untouched opened p.tpm).pre fun _ h => h.2) fun loaded => .ite (fun _ => ?_) fun _ => ?_
  · exact .pure fun _ h => ⟨fun provider hmem => Option.some.inj hmem ▸ hp, h⟩
  · exact .bind (close_untouched hp) fun _ => .pure fun _ h => ⟨fun provider hmem => (by cases hmem), h⟩

theorem collectEvidenceFields_untouched (sys : System) (env : CollectEnv) (nonceB64 : Bytes) :
    Triple (fun w => Untouched t w.tpm) (collectEvidenceFields sys env nonceB64) fun _ w => Untouched t w.tpm := by
  refine .bind selectEnrolledProvider_untouched fun provider => ?_
  cases provider with
  | none => exact .pure fun _ h => h.2
  | some provider =>
    refine .assume (fun _ h => h.1 provider rfl) fun hp => ?_
    refine .bind (Q := fun r w => OpenedIn t { tpm := r.2 } ∧ Untouched t w.tpm) ?_ fun (opened, tpmCmd) => ?_
    · exact fun w h => openContext_untouched w h.2
    · refine .assume (fun _ h => h.1) fun hcmd => .bind (Q := fun _ w => Untouched t w.tpm) ?_ fun _ => ?_
      · exact fun w h => close_untouched hcmd w h.2
      · exact .bind (close_untouched hp) fun _ => .pure fun _ h => h

theorem rootHeraldCollectEvidence_untouched (sys : System) (nonceB64 : Option Bytes) (outEvidenceJson : Bool)
    (env : CollectEnv) : Triple (fun w => Untouched t w.tpm) (rootHeraldCollectEvidence sys nonceB64 outEvidenceJson env)
      fun _ w => Untouched t w.tpm := by
  cases nonceB64 with
  | none => exact .pure fun _ h => h
  | some nonceB64 =>
    refine .ite (fun _ => .pure fun _ h => h) fun _ => .bind (collectEvidenceFields_untouched sys env nonceB64) fun r => ?_
    cases r with
    | error fault => exact .pure fun _ h => h
    | ok collected =>
      exact .ite (fun _ => .pure fun _ h => h) fun _ => .ite (fun _ => .pure fun _ h => h) fun _ => .pure fun _ h => h

end Observers
end RootHerald.Windows
