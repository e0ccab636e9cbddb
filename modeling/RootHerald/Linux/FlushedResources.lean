import RootHerald.Lib.Ledger
import RootHerald.Linux.TpmResources

/-! What a run on one context leaves open in the TPM: the objects and sessions whose flush failed, and
the policy sessions no call flushes. -/
namespace RootHerald.Linux.Resources
open Lib Use

section Ledger

/-- What a call opens or ends. A successful ActivateCredential ends its policy session where the TPM
consumes it. -/
def EsapiCall.use (consumed : Bool) : EsapiCall → Option (Use Resource)
  | .createPrimary opened => opened.map fun handle => .taken (.object handle)
  | .load opened => opened.map fun handle => .taken (.object handle)
  | .startAuthSession opened => opened.map fun n => .taken (.session n)
  | .activateCredential n rc => if rc && consumed then some (.released (.session n)) else none
  | .flushContext r rc => if rc then some (.released r) else none
  | .create _ | .policySecret _ => none

def uses (consumed : Bool) (calls : List EsapiCall) : List (Use Resource) := calls.filterMap (EsapiCall.use consumed)

/-- What a call leaves open for good: its flush failed, or its session is not flushed behind it. -/
def EsapiCall.leak (consumed : Bool) : EsapiCall → Multiset Resource
  | .activateCredential n rc => if rc && consumed then 0 else {.session n}
  | .flushContext r rc => if rc then 0 else {r}
  | _ => 0

def leaks (consumed : Bool) (calls : List EsapiCall) : Multiset Resource := (calls.map (EsapiCall.leak consumed)).sum

/-- What the handles of the context stand for. -/
def owedHandle (handle : Option Handle) : Multiset Resource := (handle.map Resource.object).elim 0 ({·})

def owed (ctx : TpmContext) : Multiset Resource :=
  owedHandle ctx.akHandle + owedHandle ctx.srkHandle + owedHandle ctx.ekHandle

end Ledger

section Accounting
variable (consumed : Bool)

/-- Nothing was flushed twice, and held are these and what has leaked. -/
def Accounts (rs : Multiset Resource) (s : Recorded) : Prop :=
  Holding (uses consumed s.calls) (rs + leaks consumed s.calls)

variable {consumed} {rs : Multiset Resource}

private theorem accounts_cons {s s' : Recorded} {c : EsapiCall} (hcalls : s'.calls = c :: s.calls)
    {rs' : Multiset Resource}
    (h : Holding (uses consumed s.calls) (rs + leaks consumed s.calls) →
      Holding ((c.use consumed).toList ++ uses consumed s.calls) (rs' + (c.leak consumed + leaks consumed s.calls)))
    (hs : Accounts consumed rs s) : Accounts consumed rs' s' := by
  have huses : uses consumed s'.calls = (c.use consumed).toList ++ uses consumed s.calls := by
    rw [uses, hcalls, List.filterMap_cons]
    cases c.use consumed <;> rfl
  rw [Accounts, huses, leaks, hcalls, List.map_cons, List.sum_cons]
  exact h hs

/-- A call that opens what its result names. -/
private theorem recorded_opens {α : Type} {x : Esys (Option α)} {entry : Option α → EsapiCall} (resource : α → Resource)
    (huse : ∀ r, (entry r).use consumed = r.map fun a => .taken (resource a))
    (hleak : ∀ r, (entry r).leak consumed = 0) :
    Triple (Accounts consumed rs) (recorded x entry) fun r => Accounts consumed (r.elim 0 ({resource ·}) + rs) := by
  intro s hs
  refine accounts_cons (c := entry (x s.world).1) rfl (fun h => ?_) hs
  change Holding _ (((x s.world).1.elim 0 ({resource ·})) + rs + _)
  rw [huse, hleak, Multiset.zero_add]
  cases (x s.world).1 with
  | none => simpa using h
  | some a => simpa using h.take (resource a)

/-- A call that opens and ends nothing. -/
private theorem recorded_quiet {α : Type} {x : Esys α} {entry : α → EsapiCall}
    (huse : ∀ r, (entry r).use consumed = none) (hleak : ∀ r, (entry r).leak consumed = 0) :
    Triple (Accounts consumed rs) (recorded x entry) fun _ => Accounts consumed rs := by
  intro s hs
  refine accounts_cons (c := entry (x s.world).1) rfl (fun h => ?_) hs
  rw [huse, hleak, Multiset.zero_add]
  exact h

/-- A call that ends a resource, or leaves it open for good. -/
private theorem accounts_ends {s s' : Recorded} {c : EsapiCall} {r : Resource} {b : Bool}
    (hcalls : s'.calls = c :: s.calls) (huse : c.use consumed = if b then some (.released r) else none)
    (hleak : c.leak consumed = if b then 0 else {r}) (hs : Accounts consumed ({r} + rs) s) :
    Accounts consumed rs s' := by
  refine accounts_cons hcalls (fun h => ?_) hs
  rw [huse, hleak]
  cases b with
  | false =>
    rw [Multiset.add_comm {r} rs, Multiset.add_assoc] at h
    exact h
  | true =>
    rw [Multiset.add_assoc, Multiset.singleton_add] at h
    simpa using h.release

variable (consumed) (rs)

theorem flushHandle_accounts (handle : Option Handle) :
    Triple (Accounts consumed (owedHandle handle + rs)) (flushHandle handle) fun _ => Accounts consumed rs := by
  cases handle with
  | none => exact .pure fun s h => by simpa [owedHandle] using h
  | some handle => exact fun s hs => accounts_ends (b := (call s.world).1) rfl rfl rfl hs

theorem esysCreatePrimary_accounts (hierarchy : Hierarchy) (template : Template) :
    Triple (Accounts consumed rs) (esysCreatePrimary hierarchy template)
      fun r => Accounts consumed (owedHandle (r.map Prod.fst) + rs) := by
  refine (recorded_opens (fun p => .object p.1) (fun r => ?_) fun r => rfl).post fun r s h => ?_
  · cases r <;> rfl
  · cases r <;> exact h

theorem esysCreate_accounts : Triple (Accounts consumed rs) esysCreate fun _ => Accounts consumed rs :=
  recorded_quiet (fun _ => rfl) fun _ => rfl

theorem esysLoad_accounts (key : Key) :
    Triple (Accounts consumed rs) (esysLoad key) fun r => Accounts consumed (owedHandle r + rs) := by
  refine (recorded_opens Resource.object (fun r => rfl) fun r => rfl).post fun r s h => ?_
  cases r <;> exact h

theorem esysStartAuthSession_accounts :
    Triple (Accounts consumed rs) esysStartAuthSession
      fun r => Accounts consumed (r.elim 0 ({Resource.session ·}) + rs) := by
  intro s hs
  change Accounts consumed ((esysStartAuthSession s).1.elim 0 _ + rs) (esysStartAuthSession s).2
  unfold esysStartAuthSession
  split_ifs
  · exact accounts_cons (c := .startAuthSession (some s.started)) rfl
      (fun h => by simpa [EsapiCall.use, EsapiCall.leak] using h.take (Resource.session s.started)) hs
  · exact accounts_cons (c := .startAuthSession none) rfl
      (fun h => by simpa [EsapiCall.use, EsapiCall.leak] using h) hs

theorem tpmClose_accounts (ctx : TpmContext) :
    Triple (Accounts consumed (owed ctx)) (tpmClose ctx) fun _ => Accounts consumed 0 := by
  have howed : owed ctx = owedHandle ctx.akHandle + (owedHandle ctx.srkHandle + (owedHandle ctx.ekHandle + 0)) := by
    rw [Multiset.add_zero, ← Multiset.add_assoc, owed]
  rw [howed]
  exact .bind (flushHandle_accounts consumed _ _) fun _ => .bind (flushHandle_accounts consumed _ _)
    fun _ => flushHandle_accounts consumed _ _

theorem tpmReadEkPub_accounts (ctx : TpmContext) :
    Triple (Accounts consumed (owed ctx)) (tpmReadEkPub ctx) fun r => Accounts consumed (owed r.2) := by
  let rest := owedHandle ctx.akHandle + owedHandle ctx.srkHandle
  have howed : ∀ ek, owed { ctx with ekHandle := ek } = owedHandle ek + rest := fun ek => Multiset.add_comm _ _
  refine .bind ((flushHandle_accounts consumed rest ctx.ekHandle).pre fun s h => howed ctx.ekHandle ▸ h)
    fun _ => .bind (esysCreatePrimary_accounts consumed rest _ _) fun primary => ?_
  cases primary with
  | none => exact .pure fun s h => by rw [howed]; exact h
  | some p =>
    refine .bind (Q := fun _ => Accounts consumed (owed { ctx with ekHandle := some p.1 })) (fun s h => ?_)
      fun rc => .ite (fun _ => .pure fun _ h => h) fun _ => .pure fun _ h => h
    rw [howed]
    exact h

theorem tpmCreateAk_accounts (ctx : TpmContext) :
    Triple (Accounts consumed (owed ctx)) (tpmCreateAk ctx) fun r => Accounts consumed (owed r.2) := by
  let ek := owedHandle ctx.ekHandle
  have hsrk : ∀ srk, owed { ctx with srkHandle := srk } = owedHandle srk + (owedHandle ctx.akHandle + ek) := by
    intro srk
    rw [← Multiset.add_assoc, Multiset.add_comm (owedHandle srk)]
    rfl
  have hak : ∀ srk ak, owed { ctx with srkHandle := srk, akHandle := ak } = owedHandle ak + (owedHandle srk + ek) :=
    fun srk ak => Multiset.add_assoc _ _ _
  refine .bind ((flushHandle_accounts consumed _ ctx.srkHandle).pre fun s h => hsrk ctx.srkHandle ▸ h)
    fun _ => .bind (esysCreatePrimary_accounts consumed _ _ _) fun primary => ?_
  cases primary with
  | none => exact .pure fun s h => by rw [hsrk]; exact h
  | some p =>
    refine .bind (esysCreate_accounts consumed _) fun key => ?_
    cases key with
    | none => exact .pure fun s h => by rw [hsrk]; exact h
    | some key =>
      refine .bind ((flushHandle_accounts consumed (owedHandle (some p.1) + ek) ctx.akHandle).pre fun s h => ?_)
        fun _ => .bind (esysLoad_accounts consumed _ key) fun ak => ?_
      · rw [← hak, hsrk]
        exact h
      · cases ak with
        | none => exact .pure fun s h => by rw [hak]; exact h
        | some ak => exact .pure fun s h => by rw [hak]; exact h

/-- The session is started and ended in the call, or left open for good. -/
theorem tpmActivateCredential_accounts (ctx : TpmContext) (credBlobLen secretLen : Nat) :
    Triple (Accounts consumed rs) (tpmActivateCredential ctx credBlobLen secretLen) fun _ => Accounts consumed rs := by
  refine .ite (fun _ => .pure fun _ h => h) fun _ => .ite (fun _ => .pure fun _ h => h)
    fun _ => .ite (fun _ => .pure fun _ h => h) fun _ => ?_
  refine .bind (esysStartAuthSession_accounts consumed rs) fun session => ?_
  cases session with
  | none => exact .pure fun s h => by simpa using h
  | some n =>
    refine .bind (recorded_quiet (fun _ => rfl) fun _ => rfl) fun rc => .ite (fun _ s hs => ?_) fun _ => ?_
    · exact accounts_ends (b := (call s.world).1 && consumed) rfl rfl rfl hs
    · refine .bind (Q := fun _ => Accounts consumed rs) (fun s hs => ?_) fun _ => .pure fun _ h => h
      exact accounts_ends (b := (call s.world).1) rfl rfl rfl hs

end Accounting

section Runs

/-- A call on the context. -/
inductive TpmCall where
  | readEkPub
  | createAk
  | activateCredential (credBlobLen secretLen : Nat)
  deriving DecidableEq, Repr

def TpmCall.run (ctx : TpmContext) : TpmCall → Traced TpmContext
  | .readEkPub => do return (← tpmReadEkPub ctx).2
  | .createAk => do return (← tpmCreateAk ctx).2
  | .activateCredential credBlobLen secretLen => do
    let _cert ← tpmActivateCredential ctx credBlobLen secretLen
    return ctx

/-- The calls in order, and tpm_close behind them. -/
def runAndClose : List TpmCall → TpmContext → Traced Unit
  | [], ctx => tpmClose ctx
  | c :: calls, ctx => do runAndClose calls (← c.run ctx)

/-- The library calls of a run on a context just opened. -/
def esapiCalls (calls : List TpmCall) (w : World) : List EsapiCall := (runAndClose calls {} ⟨w, 0, []⟩).2.calls

variable (consumed : Bool)

theorem TpmCall.run_accounts (ctx : TpmContext) (c : TpmCall) :
    Triple (Accounts consumed (owed ctx)) (c.run ctx) fun ctx' => Accounts consumed (owed ctx') := by
  cases c with
  | readEkPub => exact .bind (tpmReadEkPub_accounts consumed ctx) fun r => .pure fun _ h => h
  | createAk => exact .bind (tpmCreateAk_accounts consumed ctx) fun r => .pure fun _ h => h
  | activateCredential credBlobLen secretLen =>
    exact .bind (tpmActivateCredential_accounts consumed _ ctx credBlobLen secretLen) fun _ => .pure fun _ h => h

theorem runAndClose_accounts (calls : List TpmCall) (ctx : TpmContext) :
    Triple (Accounts consumed (owed ctx)) (runAndClose calls ctx) fun _ => Accounts consumed 0 := by
  induction calls generalizing ctx with
  | nil => exact tpmClose_accounts consumed ctx
  | cons c calls ih => exact .bind (c.run_accounts consumed ctx) ih

/-- Behind tpm_close, open is what has leaked, and nothing was flushed twice. -/
theorem esapiCalls_holding (calls : List TpmCall) (w : World) :
    Holding (uses consumed (esapiCalls calls w)) (leaks consumed (esapiCalls calls w)) := by
  have h : Accounts consumed 0 (runAndClose calls {} ⟨w, 0, []⟩).2 :=
    runAndClose_accounts consumed calls {} ⟨w, 0, []⟩ Holding.nil
  rwa [Accounts, Multiset.zero_add] at h

/-- A flush that succeeded, an ActivateCredential that succeeded and consumed its session, or any call
that ends nothing. -/
def EsapiCall.LeavesNothing : EsapiCall → Prop
  | .activateCredential _ rc => rc = true ∧ consumed = true
  | .flushContext _ rc => rc = true
  | _ => True

theorem EsapiCall.leak_eq_zero (c : EsapiCall) : c.leak consumed = 0 ↔ c.LeavesNothing consumed := by
  cases c with
  | activateCredential n rc => cases rc <;> cases consumed <;> simp [leak, LeavesNothing]
  | flushContext r rc => cases rc <;> simp [leak, LeavesNothing]
  | _ => simp [leak, LeavesNothing]

theorem leaks_eq_zero (calls : List EsapiCall) : leaks consumed calls = 0 ↔ ∀ c ∈ calls, c.LeavesNothing consumed := by
  induction calls with
  | nil => simp [leaks]
  | cons c calls ih =>
    rw [List.forall_mem_cons, ← c.leak_eq_zero, ← ih, leaks, List.map_cons, List.sum_cons, ← Multiset.card_eq_zero,
      Multiset.card_add, Nat.add_eq_zero_iff, Multiset.card_eq_zero, Multiset.card_eq_zero]
    rfl

/-- Every object and session a run opened has been flushed when tpm_close returns exactly when every
flush succeeded and every ActivateCredential succeeded, where success consumes the policy session. -/
theorem all_flushed_iff (calls : List TpmCall) (w : World) :
    held (uses consumed (esapiCalls calls w)) = 0 ↔ ∀ c ∈ esapiCalls calls w, c.LeavesNothing consumed := by
  rw [(esapiCalls_holding consumed calls w).held_eq, leaks_eq_zero]

/-- A challenge that ActivateCredential rejects leaves its policy session open. -/
theorem activation_leaks_session :
    ¬ ∀ (calls : List TpmCall) (w : World), held (uses true (esapiCalls calls w)) = 0 := by
  intro h
  have hrun := h [.readEkPub, .createAk, .activateCredential 0 0]
    { codes := [true, true, true, true, true, true, true, false, true, true, true] }
  exact absurd (congrArg Multiset.card hrun) (by decide +kernel)

end Runs
end RootHerald.Linux.Resources
