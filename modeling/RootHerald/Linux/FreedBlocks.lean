import Mathlib.Algebra.Order.Group.Multiset
import RootHerald.Linux.EsapiBlocks

/-! What the wrapper frees: every block the library hands out exactly once, in every run on one context in which
no failing Esys_Create leaves its outputs alone. The ones that do are the only runs that free a block twice. -/
namespace RootHerald.Linux.Blocks
open Lib Use

section Projection

theorem unowned_projects {α : Type} (x : Esys α) : Projects Memory.world id (unowned x) x := fun _ => ⟨rfl, rfl⟩

/-- How a call with outputs ends. -/
theorem outputs_cases {α : Type} (call : OutCall) (outs : List Var) (x : Esys (Option α)) (vars : Vars) (m : Memory) :
    (∃ a, (x m.world).1 = some a ∧ outputs call outs x vars m = ((some a, assign vars m.handed outs), { m with
      world := (x m.world).2, handed := m.handed + outs.length, uses := takenFrom m.handed outs.length ++ m.uses
      ends := (call, .succeeded) :: m.ends })) ∨
    (x m.world).1 = none ∧ (outputs call outs x vars m = ((none, clear vars outs), { m with
      world := (x m.world).2, clears := m.clears.tail, ends := (call, .cleared) :: m.ends }) ∨
      outputs call outs x vars m = ((none, vars), { m with
        world := (x m.world).2, clears := m.clears.tail, ends := (call, .untouched) :: m.ends })) := by
  rcases hx : x m.world with ⟨_ | a, world⟩
  · refine .inr ⟨rfl, ?_⟩
    simp only [outputs, hx]
    split
    · exact .inl rfl
    · exact .inr rfl
  · exact .inl ⟨a, rfl, by simp only [outputs, hx]⟩

theorem outputs_projects {α : Type} (call : OutCall) (outs : List Var) (x : Esys (Option α)) (vars : Vars) :
    Projects Memory.world Prod.fst (outputs call outs x vars) x := by
  intro m
  obtain ⟨a, hx, h⟩ | ⟨hx, h | h⟩ := outputs_cases call outs x vars m
  all_goals
    rw [h]
    exact ⟨hx.symm, rfl⟩

theorem calling_eq (w : World) : (calling w).1.isSome = (call w).1 ∧ (calling w).2 = (call w).2 := by
  obtain ⟨tpm, codes⟩ := w
  rcases codes with _ | ⟨_ | _, codes⟩ <;> exact ⟨rfl, rfl⟩

theorem outputs_calling_projects (out : OutCall) (outs : List Var) (vars : Vars) :
    Projects Memory.world (fun r => r.1.isSome) (outputs out outs calling vars) call := by
  intro m
  obtain ⟨hresult, hworld⟩ := outputs_projects out outs calling vars m
  obtain ⟨hcode, hcalled⟩ := calling_eq m.world
  exact ⟨(congrArg Option.isSome hresult).trans hcode, hworld.trans hcalled⟩

theorem esysFree_silent (block : Option Nat) (m : Memory) : (esysFree block m).2.world = m.world := by
  cases block <;> rfl

theorem tpmReadEkPub_projects (ctx : TpmContext) :
    Projects Memory.world id (tpmReadEkPub ctx) (Linux.tpmReadEkPub ctx) := by
  refine .bind (unowned_projects _) fun _ => .bind (outputs_projects _ _ _ _) fun (primary, vars) => ?_
  refine .skip (esysFree_silent _) fun _ => .skip (esysFree_silent _) fun _ => .skip (esysFree_silent _) fun _ => ?_
  cases primary with
  | none => exact .pure _
  | some p =>
    exact .bind (unowned_projects _) fun rc => .skip (esysFree_silent _) fun _ => .ite (.pure _) (.pure _)

theorem tpmCreateAk_projects (ctx : TpmContext) :
    Projects Memory.world id (tpmCreateAk ctx) (Linux.tpmCreateAk ctx) := by
  refine .bind (unowned_projects _) fun _ => .bind (outputs_projects _ _ _ _) fun (primary, vars) => ?_
  refine .skip (esysFree_silent _) fun _ => .skip (esysFree_silent _) fun _ => .skip (esysFree_silent _) fun _ =>
    .skip (esysFree_silent _) fun _ => ?_
  cases primary with
  | none => exact .pure _
  | some p =>
    refine .bind (outputs_projects _ _ _ _) fun (created, vars) => ?_
    refine .skip (esysFree_silent _) fun _ => .skip (esysFree_silent _) fun _ => .skip (esysFree_silent _) fun _ => ?_
    cases created with
    | none => exact .skip (esysFree_silent _) fun _ => .skip (esysFree_silent _) fun _ => .pure _
    | some key =>
      refine .bind (unowned_projects _) fun _ => .bind (unowned_projects _) fun ak => ?_
      refine .skip (esysFree_silent _) fun _ => .skip (esysFree_silent _) fun _ => ?_
      cases ak with
      | none => exact .pure _
      | some ak => exact .pure _

theorem tpmGetAkPub_projects (ctx : TpmContext) :
    Projects Memory.world id (tpmGetAkPub ctx) (Linux.tpmGetAkPub ctx) := by
  unfold tpmGetAkPub Linux.tpmGetAkPub
  cases ctx.akHandle with
  | none => exact .pure _
  | some handle =>
    refine .bind (outputs_projects _ _ _ _) fun (pub, vars) => ?_
    refine .skip (esysFree_silent _) fun _ => .skip (esysFree_silent _) fun _ => ?_
    cases pub with
    | none => exact .pure _
    | some key =>
      exact .bind (unowned_projects _) fun rc => .skip (esysFree_silent _) fun _ => .ite (.pure _) (.pure _)

/-- With a buffer the name fits into. -/
theorem tpmGetAkName_projects (ctx : TpmContext) {outNameLen : Option Nat} {nameSize : Nat}
    (hfits : ∀ len ∈ outNameLen, nameSize ≤ len) :
    Projects Memory.world (fun rc => decide (rc = 0)) (tpmGetAkName ctx outNameLen nameSize)
      (do return (← Linux.tpmGetAkName ctx).isSome) := by
  unfold tpmGetAkName Linux.tpmGetAkName
  cases ctx.akHandle with
  | none => exact .pure _
  | some handle =>
    refine .bind (outputs_projects _ _ _ _) fun (pub, vars) => ?_
    refine .skip (esysFree_silent _) fun _ => .skip (esysFree_silent _) fun _ => ?_
    cases pub with
    | none => exact .pure _
    | some key =>
      cases outNameLen with
      | none => exact .skip (esysFree_silent _) fun _ => .pure _
      | some len =>
        simp only [if_neg (Nat.not_lt.mpr (hfits len rfl))]
        exact .skip (esysFree_silent _) fun _ => .pure _

/-- With a buffer the certificate information fits into. -/
theorem tpmActivateCredential_projects (ctx : TpmContext) (credBlobLen secretLen : Nat) {outCertInfoLen : Option Nat}
    {certInfoSize : Nat} (hfits : ∀ len ∈ outCertInfoLen, certInfoSize ≤ len) :
    Projects Memory.world (fun rc => decide (rc = 0))
      (tpmActivateCredential ctx credBlobLen secretLen outCertInfoLen certInfoSize)
      (Linux.tpmActivateCredential ctx credBlobLen secretLen) := by
  refine .ite (.pure _) (.ite (.pure _) (.ite (.pure _) (.bind (unowned_projects call) fun rc => .ite ?_ (.pure _))))
  refine .bind (outputs_calling_projects _ _ _) fun (policy, vars) => ?_
  refine .skip (esysFree_silent _) fun _ => .skip (esysFree_silent _) fun _ => ?_
  cases policy with
  | none => exact .bind (unowned_projects call) fun _ => .pure _
  | some _ =>
    refine .bind (outputs_calling_projects _ _ _) (g := pure) fun (activated, vars) => ?_
    cases activated with
    | none => exact .pure _
    | some _ =>
      cases outCertInfoLen with
      | none => exact .skip (esysFree_silent _) fun _ => .pure _
      | some len =>
        simp only [if_neg (Nat.not_lt.mpr (hfits len rfl))]
        exact .skip (esysFree_silent _) fun _ => .pure _

end Projection

section Library

/-- The blocks the variables point to. -/
def pointed (vars : Vars) (vs : List Var) : Multiset Nat := (vs.filterMap vars : List Nat)

/-- Esys_Create failed and left its outputs alone, which still point to the blocks of Esys_CreatePrimary. -/
def Dangled (m : Memory) : Prop := (OutCall.create, CallEnd.untouched) ∈ m.ends

/-- Every free so far was of a held block, these blocks are held, and a block is handed out once. -/
structure Owns (bs : Multiset Nat) (m : Memory) : Prop where
  holding : Holding m.uses bs
  count_taken : ∀ b, m.uses.count (.taken b) = if b < m.handed then 1 else 0

/-- So it is unless outputs dangled, and where they did, some free was not of a held block. -/
def Accounts (bs : Multiset Nat) (m : Memory) : Prop := Dangled m ∧ ¬ Sound m.uses ∨ ¬ Dangled m ∧ Owns bs m

variable {bs : Multiset Nat} {vars : Vars} {v : Var} {vs : List Var}

theorem pointed_none (h : vars v = none) : pointed vars (v :: vs) = pointed vars vs := by
  rw [pointed, List.filterMap_cons_none h, pointed]

theorem pointed_some {b : Nat} (h : vars v = some b) : pointed vars (v :: vs) = b ::ₘ pointed vars vs := by
  rw [pointed, List.filterMap_cons_some h, ← Multiset.cons_coe, pointed]

theorem pointed_perm {ws : List Var} (h : vs.Perm ws) : pointed vars vs = pointed vars ws :=
  Multiset.coe_eq_coe.mpr (h.filterMap vars)

theorem pointed_clear (h : ∀ v ∈ vs, vars v = none) : pointed vars vs = 0 := by
  rw [pointed, List.filterMap_eq_nil_iff.mpr h, Multiset.coe_nil]

theorem pointed_congr {vars' : Vars} (h : ∀ v ∈ vs, vars v = vars' v) : pointed vars vs = pointed vars' vs := by
  rw [pointed, List.filterMap_congr h, pointed]

theorem assign_other (h : v ∉ vs) (n : Nat) : assign vars n vs v = vars v := by
  induction vs generalizing n with
  | nil => rfl
  | cons w vs ih =>
    obtain ⟨hne, h⟩ := not_or.mp (mt List.mem_cons.mpr h)
    rw [assign, Function.update_of_ne hne, ih h]

theorem assign_ne_none (h : v ∈ vs) (n : Nat) : assign vars n vs v ≠ none := by
  induction vs generalizing n with
  | nil => exact absurd h List.not_mem_nil
  | cons w vs ih =>
    rw [assign]
    by_cases hv : v = w
    · rw [hv, Function.update_self]
      exact Option.some_ne_none n
    · rw [Function.update_of_ne hv]
      exact ih ((List.mem_cons.mp h).resolve_left hv) (n + 1)

/-- What was handed out is what the outputs point to. -/
theorem holding_takenFrom {us : List (Use Nat)} (hnodup : vs.Nodup) (h : Holding us 0) (n : Nat) :
    Holding (takenFrom n vs.length ++ us) (pointed (assign vars n vs) vs) := by
  induction vs generalizing n with
  | nil => exact h
  | cons v vs ih =>
    obtain ⟨hv, hnodup⟩ := List.nodup_cons.mp hnodup
    have hassign : ∀ w ∈ vs, assign vars n (v :: vs) w = assign vars (n + 1) vs w :=
      fun w hw => Function.update_of_ne (ne_of_mem_of_not_mem hw hv) _ _
    have hhead : assign vars n (v :: vs) v = some n := Function.update_self _ _ _
    rw [pointed_some hhead, pointed_congr hassign]
    exact (ih hnodup (n + 1)).take n

theorem sound_takenFrom {us : List (Use Nat)} {n k : Nat} (h : Sound (takenFrom n k ++ us)) : Sound us := by
  induction k generalizing n with
  | zero => exact h
  | succ k ih => exact ih h

theorem count_takenFrom (n k b : Nat) :
    (takenFrom n k).count (.taken b) = if n ≤ b ∧ b < n + k then 1 else 0 := by
  induction k generalizing n with
  | zero => rw [if_neg (by omega)]; rfl
  | succ k ih =>
    rw [takenFrom, List.count_cons, ih]
    simp only [beq_iff_eq, Use.taken.injEq]
    split_ifs <;> omega

theorem unowned_accounts {α : Type} (x : Esys α) : Triple (Accounts bs) (unowned x) fun _ => Accounts bs :=
  fun _ h => h.imp id fun ⟨hdangled, h⟩ => ⟨hdangled, h.holding, h.count_taken⟩

theorem esysFree_accounts (vars : Vars) (v : Var) (vs : List Var) :
    Triple (Accounts (pointed vars (v :: vs))) (esysFree (vars v)) fun _ => Accounts (pointed vars vs) := by
  cases hv : vars v with
  | none => exact .pure fun m h => by rwa [pointed_none hv] at h
  | some b =>
    rintro m (⟨hdangled, hsound⟩ | ⟨hdangled, h⟩)
    · exact .inl ⟨hdangled, fun hs => hsound hs.2⟩
    · have hold := h.holding
      rw [pointed_some hv] at hold
      exact .inr ⟨hdangled, hold.release, fun c => (List.count_cons_of_ne (by simp)).trans (h.count_taken c)⟩

theorem dangled_cons {m m' : Memory} {call : OutCall} {e : CallEnd} (hends : m'.ends = (call, e) :: m.ends)
    (hne : (call, e) ≠ (.create, .untouched)) : Dangled m' ↔ Dangled m := by
  rw [Dangled, Dangled, hends, List.mem_cons, or_iff_right hne.symm]

/-- A call whose outputs do not dangle. -/
theorem accounts_cons {m m' : Memory} {bs' : Multiset Nat} {call : OutCall} {e : CallEnd}
    (hends : m'.ends = (call, e) :: m.ends) (hne : (call, e) ≠ (.create, .untouched)) {us : List (Use Nat)}
    (huses : m'.uses = us ++ m.uses) (hus : Sound (us ++ m.uses) → Sound m.uses)
    (h : Owns bs m → Owns bs' m') (hm : Accounts bs m) : Accounts bs' m' := by
  rw [Accounts, dangled_cons hends hne, huses]
  obtain ⟨hdangled, hsound⟩ | ⟨hdangled, hold⟩ := hm
  · exact .inl ⟨hdangled, fun hs => hsound (hus hs)⟩
  · exact .inr ⟨hdangled, h hold⟩

/-- What a call leaves in its outputs and beside them. -/
structure Left (vars : Vars) (outs : List Var) {α : Type} (r : Option α × Vars) : Prop where
  cleared : r.1 = none → ∀ v ∈ outs, r.2 v = none
  assigned : r.1 ≠ none → ∀ v ∈ outs, r.2 v ≠ none
  others : ∀ v ∉ outs, r.2 v = vars v

section Call
variable {α : Type} {call : OutCall} {outs : List Var} {m : Memory}

theorem left_assigned (a : α) (n : Nat) : Left vars outs (some a, assign vars n outs) where
  cleared h := nomatch h
  assigned _ _ hv := assign_ne_none hv n
  others _ hv := assign_other hv n

theorem left_cleared : Left vars outs ((none : Option α), clear vars outs) where
  cleared _ _ hv := if_pos hv
  assigned h := absurd rfl h
  others _ hv := if_neg hv

theorem assigned_accounts {m' : Memory} (hnodup : outs.Nodup) (hends : m'.ends = (call, .succeeded) :: m.ends)
    (huses : m'.uses = takenFrom m.handed outs.length ++ m.uses) (hhanded : m'.handed = m.handed + outs.length)
    (hm : Accounts 0 m) : Accounts (pointed (assign vars m.handed outs) outs) m' := by
  refine accounts_cons hends (fun h => nomatch congrArg Prod.snd h) huses sound_takenFrom (fun h => ⟨?_, fun b => ?_⟩) hm
  · rw [huses]
    exact holding_takenFrom hnodup h.holding m.handed
  · rw [huses, List.count_append, count_takenFrom, h.count_taken, hhanded]
    split_ifs <;> omega

theorem cleared_accounts {m' : Memory} {vars' : Vars} {e : CallEnd} (hnull : ∀ v ∈ outs, vars' v = none)
    (hends : m'.ends = (call, e) :: m.ends) (hne : (call, e) ≠ (.create, .untouched)) (huses : m'.uses = m.uses)
    (hhanded : m'.handed = m.handed) (hm : Accounts 0 m) : Accounts (pointed vars' outs) m' := by
  rw [pointed_clear hnull]
  refine accounts_cons hends hne (show m'.uses = [] ++ m.uses from huses) id (fun h => ⟨huses ▸ h.holding, fun b => ?_⟩) hm
  rw [huses, hhanded]
  exact h.count_taken b

/-- A call whose outputs are NULL before it. -/
theorem outputs_accounts (x : Esys (Option α)) (hcall : call ≠ .create) (hnodup : outs.Nodup)
    (hnull : ∀ v ∈ outs, vars v = none) :
    Triple (Accounts 0) (outputs call outs x vars) fun r m => Left vars outs r ∧ Accounts (pointed r.2 outs) m := by
  intro m hm
  change Left vars outs (outputs call outs x vars m).1 ∧
    Accounts (pointed (outputs call outs x vars m).1.2 outs) (outputs call outs x vars m).2
  have hne : ∀ e, (call, e) ≠ (.create, CallEnd.untouched) := fun e he => hcall (congrArg Prod.fst he)
  obtain ⟨a, -, h⟩ | ⟨-, h | h⟩ := outputs_cases call outs x vars m
  all_goals rw [h]
  · exact ⟨left_assigned a m.handed, assigned_accounts hnodup rfl rfl rfl hm⟩
  · exact ⟨left_cleared, cleared_accounts (fun v hv => if_pos hv) rfl (hne _) rfl rfl hm⟩
  · exact ⟨⟨fun _ => hnull, fun hr => absurd rfl hr, fun _ _ => rfl⟩, cleared_accounts hnull rfl (hne _) rfl rfl hm⟩

/-- Behind an Esys_Create that left its outputs alone, the creation data point to a block that is not held. -/
def Stale (vars : Vars) (outs : List Var) (m : Memory) : Prop :=
  Accounts (pointed vars outs) m ∨ vars .creationData ≠ none ∧ Dangled m ∧ held m.uses = 0

theorem createOutputs_stale (x : Esys (Option α)) (hnodup : outs.Nodup) (hdata : vars .creationData ≠ none) :
    Triple (Accounts 0) (outputs .create outs x vars) fun r => Stale r.2 outs := by
  intro m hm
  change Stale (outputs .create outs x vars m).1.2 outs (outputs .create outs x vars m).2
  obtain ⟨a, -, h⟩ | ⟨-, h | h⟩ := outputs_cases .create outs x vars m
  all_goals rw [h]
  · exact .inl (assigned_accounts hnodup rfl rfl rfl hm)
  · exact .inl (cleared_accounts (fun v hv => if_pos hv) rfl (fun h => nomatch h) rfl rfl hm)
  · have hdangled : (OutCall.create, CallEnd.untouched) ∈ (OutCall.create, CallEnd.untouched) :: m.ends :=
      List.mem_cons_self
    obtain ⟨-, hsound⟩ | ⟨-, hold⟩ := hm
    · exact .inl (.inl ⟨hdangled, hsound⟩)
    · exact .inr ⟨hdata, hdangled, hold.holding.held_eq⟩

theorem esysFree_stale (vars : Vars) (vs : List Var) :
    Triple (Stale vars (.creationData :: vs)) (esysFree (vars .creationData)) fun _ => Accounts (pointed vars vs) := by
  rintro m (h | ⟨hdata, hdangled, hheld⟩)
  · exact esysFree_accounts vars .creationData vs m h
  · obtain ⟨b, hb⟩ := Option.ne_none_iff_exists'.mp hdata
    rw [hb]
    refine .inl ⟨hdangled, fun hs => ?_⟩
    have hmem : b ∈ held m.uses := hs.1
    rw [hheld] at hmem
    exact Multiset.notMem_zero b hmem

end Call

theorem nothing_held {α : Type} (a : α) : Triple (Accounts 0) (pure a : Heaped α) fun _ => Accounts 0 := .pure fun _ h => h

theorem failed_held {α β : Type} {vars vars' : Vars} {outs rest : List Var} (h : Left vars outs ((none : Option α), vars'))
    (hrest : rest ⊆ outs) (b : β) :
    Triple (Accounts (pointed vars' rest)) (pure b : Heaped β) fun _ => Accounts 0 := by
  rw [pointed_clear fun v hv => h.cleared rfl v (hrest hv)]
  exact nothing_held b

theorem esysFree_perm (vars : Vars) (v : Var) (vs : List Var) {ws : List Var} (h : ws.Perm (v :: vs)) :
    Triple (Accounts (pointed vars ws)) (esysFree (vars v)) fun _ => Accounts (pointed vars vs) := by
  rw [pointed_perm h]
  exact esysFree_accounts vars v vs

end Library

section Wrapper

theorem nvReadLoop_accounts (nvSize : Nat) (sizes : List Nat) (offset : Nat) {vars : Vars} (hvars : vars .nvData = none) :
    Triple (Accounts 0) (nvReadLoop nvSize sizes offset vars) fun _ => Accounts 0 := by
  induction sizes generalizing offset vars with
  | nil => exact nothing_held _
  | cons size sizes ih =>
    refine .ite (fun _ => ?_) fun _ => nothing_held _
    refine .bind (outputs_accounts calling (by decide) (by decide) (by simpa using hvars)) fun (nvData, vars) =>
      .assume (fun _ h => h.1) fun hleft => .pre ?_ fun _ h => h.2
    cases nvData with
    | none => exact failed_held hleft (List.Subset.refl _) _
    | some _ =>
      exact .bind (esysFree_accounts vars .nvData []) fun _ => ih (offset + size) (Function.update_self _ _ _)

theorem tpmReadEkCert_accounts (nvSize : Nat) (sizes : List Nat) (outCertLen : Option Nat) :
    Triple (Accounts 0) (tpmReadEkCert nvSize sizes outCertLen) fun _ => Accounts 0 := by
  refine .bind (unowned_accounts call) fun rc => .ite (fun _ => ?_) fun _ => nothing_held _
  refine .bind (outputs_accounts calling (by decide) (by decide) fun _ _ => rfl) fun (nvPublic, vars) =>
    .assume (fun _ h => h.1) fun hleft => .pre ?_ fun _ h => h.2
  cases nvPublic with
  | none => exact failed_held hleft (List.Subset.refl _) _
  | some _ =>
    refine .bind (esysFree_perm vars .nvName [.nvPublic] (by decide)) fun _ =>
      .bind (esysFree_accounts vars .nvPublic []) fun _ => ?_
    cases outCertLen with
    | none => exact nothing_held _
    | some outCertLen =>
      refine .ite (fun _ => nothing_held _) fun _ => nvReadLoop_accounts nvSize sizes 0 ?_
      exact hleft.others .nvData (by decide)

theorem tpmReadEkPub_accounts (ctx : TpmContext) :
    Triple (Accounts 0) (tpmReadEkPub ctx) fun _ => Accounts 0 := by
  refine .bind (unowned_accounts _) fun _ => .bind
    (outputs_accounts _ (by decide) (by decide) fun _ _ => rfl) fun (primary, vars) =>
    .assume (fun _ h => h.1) fun hleft => .pre ?_ fun _ h => h.2
  refine .bind (esysFree_perm vars .creationData [.creationHash, .creationTicket, .outPublic] (by decide))
    fun _ => .bind (esysFree_accounts vars _ _) fun _ => .bind (esysFree_accounts vars _ _) fun _ => ?_
  cases primary with
  | none => exact failed_held hleft (by decide) _
  | some p =>
    exact .bind (unowned_accounts call) fun rc => .bind (esysFree_accounts vars _ _) fun _ =>
      .ite (fun _ => nothing_held _) fun _ => nothing_held _

theorem loadAk_accounts (ctx : TpmContext) (key : Key) (vars : Vars) :
    Triple (Accounts (pointed vars [.akPrivate, .akPublic])) (loadAk ctx key vars) fun _ => Accounts 0 := by
  refine .bind (unowned_accounts _) fun _ => .bind (unowned_accounts _) fun ak =>
    .bind (esysFree_accounts vars _ _) fun _ => .bind (esysFree_accounts vars _ _) fun _ => ?_
  cases ak with
  | none => exact nothing_held _
  | some ak => exact nothing_held _

theorem createAk_accounts (ctx : TpmContext) {vars : Vars} (hdata : vars .creationData ≠ none) :
    Triple (Accounts 0) (createAk ctx vars) fun _ => Accounts 0 := by
  refine .bind (createOutputs_stale esysCreate (by decide) hdata) fun (created, vars) => ?_
  refine .bind ((esysFree_stale vars [.creationHash, .creationTicket, .akPrivate, .akPublic]).pre fun m h => ?_)
    fun _ => .bind (esysFree_accounts vars _ _) fun _ => .bind (esysFree_accounts vars _ _) fun _ => ?_
  · have hperm : [Var.akPrivate, .akPublic, .creationData, .creationHash, .creationTicket].Perm
        [.creationData, .creationHash, .creationTicket, .akPrivate, .akPublic] := by decide
    rwa [Stale, pointed_perm hperm] at h
  · cases created with
    | none =>
      exact .bind (esysFree_accounts vars _ _) fun _ => .bind (esysFree_accounts vars _ _) fun _ => nothing_held _
    | some key => exact loadAk_accounts _ key vars

theorem tpmCreateAk_accounts (ctx : TpmContext) : Triple (Accounts 0) (tpmCreateAk ctx) fun _ => Accounts 0 := by
  refine .bind (unowned_accounts _) fun _ => .bind
    (outputs_accounts _ (by decide) (by decide) fun _ _ => rfl) fun (primary, vars) =>
    .assume (fun _ h => h.1) fun hleft => .pre ?_ fun _ h => h.2
  refine .bind (esysFree_accounts vars _ _) fun _ => .bind (esysFree_accounts vars _ _) fun _ =>
    .bind (esysFree_accounts vars _ _) fun _ => .bind (esysFree_accounts vars _ _) fun _ => ?_
  cases primary with
  | none => exact nothing_held _
  | some p => exact createAk_accounts _ (hleft.assigned (Option.some_ne_none p) _ (by decide))

theorem tpmGetAkPub_accounts (ctx : TpmContext) : Triple (Accounts 0) (tpmGetAkPub ctx) fun _ => Accounts 0 := by
  unfold tpmGetAkPub
  cases ctx.akHandle with
  | none => exact nothing_held _
  | some handle =>
    refine .bind (outputs_accounts _ (by decide) (by decide) fun _ _ => rfl) fun (pub, vars) =>
      .assume (fun _ h => h.1) fun hleft => .pre ?_ fun _ h => h.2
    refine .bind (esysFree_perm vars .name [.qualifiedName, .pub] (by decide)) fun _ =>
      .bind (esysFree_accounts vars _ _) fun _ => ?_
    cases pub with
    | none => exact failed_held hleft (by decide) _
    | some key =>
      exact .bind (unowned_accounts call) fun rc => .bind (esysFree_accounts vars _ _) fun _ =>
        .ite (fun _ => nothing_held _) fun _ => nothing_held _

theorem tpmGetAkName_accounts (ctx : TpmContext) (outNameLen : Option Nat) (nameSize : Nat) :
    Triple (Accounts 0) (tpmGetAkName ctx outNameLen nameSize) fun _ => Accounts 0 := by
  unfold tpmGetAkName
  cases ctx.akHandle with
  | none => exact nothing_held _
  | some handle =>
    refine .bind (outputs_accounts _ (by decide) (by decide) fun _ _ => rfl) fun (pub, vars) =>
      .assume (fun _ h => h.1) fun hleft => .pre ?_ fun _ h => h.2
    refine .bind (esysFree_perm vars .pub [.qualifiedName, .name] (by decide)) fun _ =>
      .bind (esysFree_accounts vars _ _) fun _ => ?_
    have hname : ∀ r : Int, Triple (Accounts (pointed vars [.name])) (do esysFree (vars .name); return r)
        fun _ => Accounts 0 := fun r => .bind (esysFree_accounts vars _ _) fun _ => nothing_held r
    cases pub with
    | none => exact failed_held hleft (by decide) _
    | some key =>
      cases outNameLen with
      | none => exact hname 0
      | some outNameLen => exact .ite (fun _ => hname (-1)) fun _ => hname 0

theorem tpmQuote_accounts (ctx : TpmContext) (outQuotedLen outSigLen : Option Nat) (quotedSize sigSize : Nat) :
    Triple (Accounts 0) (tpmQuote ctx outQuotedLen outSigLen quotedSize sigSize) fun _ => Accounts 0 := by
  unfold tpmQuote
  cases ctx.akHandle with
  | none => exact nothing_held _
  | some handle =>
    refine .bind (outputs_accounts calling (by decide) (by decide) fun _ _ => rfl) fun (quote, vars) =>
      .assume (fun _ h => h.1) fun hleft => .pre ?_ fun _ h => h.2
    have hboth : ∀ r : Int, Triple (Accounts (pointed vars [.quotedInfo, .signature]))
        (do esysFree (vars .quotedInfo); esysFree (vars .signature); return r) fun _ => Accounts 0 :=
      fun r => .bind (esysFree_accounts vars _ _) fun _ => .bind (esysFree_accounts vars _ _) fun _ => nothing_held r
    cases quote with
    | none => exact failed_held hleft (by decide) _
    | some _ =>
      refine .ite (fun _ => hboth (-1)) fun _ => .bind (unowned_accounts call) fun rc => ?_
      exact .ite (fun _ => hboth (-1)) fun _ => .ite (fun _ => hboth (-1)) fun _ => hboth 0

theorem tpmPcrRead_accounts (pcrIndex : Nat) (outDigestLen : Option Nat) (digestSizes : List Nat) :
    Triple (Accounts 0) (tpmPcrRead pcrIndex outDigestLen digestSizes) fun _ => Accounts 0 := by
  refine .ite (fun _ => nothing_held _) fun _ => ?_
  refine .bind (outputs_accounts calling (by decide) (by decide) fun _ _ => rfl) fun (read, vars) =>
    .assume (fun _ h => h.1) fun hleft => .pre ?_ fun _ h => h.2
  refine .bind (esysFree_accounts vars _ _) fun _ => ?_
  have hvalues : ∀ r : Int, Triple (Accounts (pointed vars [.pcrValues])) (do esysFree (vars .pcrValues); return r)
      fun _ => Accounts 0 := fun r => .bind (esysFree_accounts vars _ _) fun _ => nothing_held r
  cases read with
  | none => exact failed_held hleft (by decide) _
  | some _ =>
    cases digestSizes with
    | nil => exact hvalues (-1)
    | cons digestSize digestSizes =>
      cases outDigestLen with
      | none => exact hvalues 0
      | some outDigestLen => exact .ite (fun _ => hvalues (-1)) fun _ => hvalues 0

theorem tpmActivateCredential_accounts (ctx : TpmContext) (credBlobLen secretLen : Nat) (outCertInfoLen : Option Nat)
    (certInfoSize : Nat) :
    Triple (Accounts 0) (tpmActivateCredential ctx credBlobLen secretLen outCertInfoLen certInfoSize)
      fun _ => Accounts 0 := by
  refine .ite (fun _ => nothing_held _) fun _ => .ite (fun _ => nothing_held _) fun _ =>
    .ite (fun _ => nothing_held _) fun _ => .bind (unowned_accounts call) fun rc =>
    .ite (fun _ => ?_) fun _ => nothing_held _
  refine .bind (outputs_accounts calling (by decide) (by decide) fun _ _ => rfl) fun (policy, vars) =>
    .assume (fun _ h => h.1) fun hpolicy => .pre ?_ fun _ h => h.2
  refine .bind (esysFree_accounts vars _ _) fun _ => .bind (esysFree_accounts vars _ _) fun _ => ?_
  cases policy with
  | none => exact .bind (unowned_accounts call) fun _ => nothing_held _
  | some _ =>
    refine .bind (outputs_accounts calling (by decide) (by decide) ?_) fun (activated, vars) =>
      .assume (fun _ h => h.1) fun hleft => .pre ?_ fun _ h => h.2
    · intro v hv
      rw [List.mem_singleton.mp hv]
      exact hpolicy.others .certInfo (by decide)
    · have hcert : ∀ r : Int, Triple (Accounts (pointed vars [.certInfo])) (do esysFree (vars .certInfo); return r)
          fun _ => Accounts 0 := fun r => .bind (esysFree_accounts vars _ _) fun _ => nothing_held r
      cases activated with
      | none => exact failed_held hleft (by decide) _
      | some _ =>
        cases outCertInfoLen with
        | none => exact hcert 0
        | some outCertInfoLen => exact .ite (fun _ => hcert (-1)) fun _ => hcert 0

end Wrapper

section Runs

/-- A call on the context, with the sizes it meets. -/
inductive Op where
  | readEkCert (nvSize : Nat) (sizes : List Nat) (outCertLen : Option Nat)
  | readEkPub
  | createAk
  | getAkPub
  | getAkName (outNameLen : Option Nat) (nameSize : Nat)
  | quote (outQuotedLen outSigLen : Option Nat) (quotedSize sigSize : Nat)
  | pcrRead (pcrIndex : Nat) (outDigestLen : Option Nat) (digestSizes : List Nat)
  | activateCredential (credBlobLen secretLen : Nat) (outCertInfoLen : Option Nat) (certInfoSize : Nat)

def Op.run (ctx : TpmContext) : Op → Heaped TpmContext
  | .readEkCert nvSize sizes outCertLen => do
    let _rc ← tpmReadEkCert nvSize sizes outCertLen
    return ctx
  | .readEkPub => do return (← tpmReadEkPub ctx).2
  | .createAk => do return (← tpmCreateAk ctx).2
  | .getAkPub => do
    let _key ← tpmGetAkPub ctx
    return ctx
  | .getAkName outNameLen nameSize => do
    let _rc ← tpmGetAkName ctx outNameLen nameSize
    return ctx
  | .quote outQuotedLen outSigLen quotedSize sigSize => do
    let _rc ← tpmQuote ctx outQuotedLen outSigLen quotedSize sigSize
    return ctx
  | .pcrRead pcrIndex outDigestLen digestSizes => do
    let _rc ← tpmPcrRead pcrIndex outDigestLen digestSizes
    return ctx
  | .activateCredential credBlobLen secretLen outCertInfoLen certInfoSize => do
    let _rc ← tpmActivateCredential ctx credBlobLen secretLen outCertInfoLen certInfoSize
    return ctx

/-- The calls in order on one context. -/
def runOps : List Op → TpmContext → Heaped TpmContext
  | [], ctx => return ctx
  | op :: ops, ctx => do runOps ops (← op.run ctx)

/-- The memory behind a run on a context just opened. -/
def memoryAfter (ops : List Op) (w : World) (clears : List Bool) : Memory := (runOps ops {} { world := w, clears }).2

theorem Op.run_accounts (ctx : TpmContext) (op : Op) : Triple (Accounts 0) (op.run ctx) fun _ => Accounts 0 := by
  cases op with
  | readEkCert => exact .bind (tpmReadEkCert_accounts _ _ _) fun _ => nothing_held _
  | readEkPub => exact .bind (tpmReadEkPub_accounts ctx) fun _ => nothing_held _
  | createAk => exact .bind (tpmCreateAk_accounts ctx) fun _ => nothing_held _
  | getAkPub => exact .bind (tpmGetAkPub_accounts ctx) fun _ => nothing_held _
  | getAkName => exact .bind (tpmGetAkName_accounts _ _ _) fun _ => nothing_held _
  | quote => exact .bind (tpmQuote_accounts _ _ _ _ _) fun _ => nothing_held _
  | pcrRead => exact .bind (tpmPcrRead_accounts _ _ _) fun _ => nothing_held _
  | activateCredential => exact .bind (tpmActivateCredential_accounts _ _ _ _ _) fun _ => nothing_held _

theorem runOps_accounts (ops : List Op) (ctx : TpmContext) : Triple (Accounts 0) (runOps ops ctx) fun _ => Accounts 0 := by
  induction ops generalizing ctx with
  | nil => exact nothing_held ctx
  | cons op ops ih => exact .bind (op.run_accounts ctx) ih

theorem memoryAfter_accounts (ops : List Op) (w : World) (clears : List Bool) : Accounts 0 (memoryAfter ops w clears) :=
  runOps_accounts ops {} { world := w, clears } (.inr ⟨List.not_mem_nil, Holding.nil, fun _ => rfl⟩)

/-- A run frees a block it does not hold exactly when some Esys_Create fails without setting its outputs to NULL;
every other run frees each block it is handed exactly once. -/
theorem freed_once_iff (ops : List Op) (w : World) (clears : List Bool) :
    (Sound (memoryAfter ops w clears).uses ↔
      (OutCall.create, CallEnd.untouched) ∉ (memoryAfter ops w clears).ends) ∧
    (Sound (memoryAfter ops w clears).uses → ∀ b,
      (memoryAfter ops w clears).uses.count (.released b) = if b < (memoryAfter ops w clears).handed then 1 else 0) := by
  obtain ⟨hdangled, hsound⟩ | ⟨hdangled, h⟩ := memoryAfter_accounts ops w clears
  · exact ⟨⟨fun hs => absurd hs hsound, fun hnot => absurd hdangled hnot⟩, fun hs => absurd hs hsound⟩
  · refine ⟨⟨fun _ => hdangled, fun _ => h.holding.sound⟩, fun hs b => ?_⟩
    rw [← h.count_taken b, hs.conserved b, h.holding.held_eq, Multiset.count_zero, Nat.add_zero]

end Runs
end RootHerald.Linux.Blocks
