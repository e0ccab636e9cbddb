import RootHerald.Windows.TbsKeyProvider
import Mathlib.Tactic.Ring

/-! What each command of the Windows client does to the TPM, whatever part of the response arrives. -/
namespace RootHerald.Windows
open Lib

section Responses

theorem readU16_take {p : Bytes} {i n : Nat} (h : i + 2 ≤ n) : readU16 (p.take n) i = readU16 p i := by
  simp only [readU16, List.getD_eq_getElem?_getD, List.getElem?_take]
  rw [if_pos (by omega), if_pos (by omega)]

theorem readU32_take {p : Bytes} {i n : Nat} (h : i + 4 ≤ n) : readU32 (p.take n) i = readU32 p i := by
  simp only [readU32, List.getD_eq_getElem?_getD, List.getElem?_take]
  rw [if_pos (by omega), if_pos (by omega), if_pos (by omega), if_pos (by omega)]

private theorem getD_append_left_length (a b : Bytes) (i : Nat) : (a ++ b).getD (a.length + i) 0 = b.getD i 0 := by
  rw [List.getD_append_right _ _ _ _ (Nat.le_add_right _ _), Nat.add_sub_cancel_left]

theorem readU16_append {a b : Bytes} {i n : Nat} (h : a.length = i) (hn : n < 2 ^ 16) :
    readU16 (a ++ (beBytes 2 n ++ b)) i = n := by
  subst h
  have h₀ := getD_append_left_length a (beBytes 2 n ++ b) 0
  rw [Nat.add_zero] at h₀
  calc readU16 (a ++ (beBytes 2 n ++ b)) a.length = beNat (beBytes 2 n) := by
        simp only [readU16, h₀, getD_append_left_length]
        rfl
    _ = n := beNat_beBytes hn

theorem readU32_append {a b : Bytes} {i n : Nat} (h : a.length = i) (hn : n < 2 ^ 32) :
    readU32 (a ++ (beBytes 4 n ++ b)) i = n := by
  subst h
  have h₀ := getD_append_left_length a (beBytes 4 n ++ b) 0
  rw [Nat.add_zero] at h₀
  calc readU32 (a ++ (beBytes 4 n ++ b)) a.length = beNat (beBytes 4 n) := by
        simp only [readU32, h₀, getD_append_left_length]
        rfl
    _ = n := beNat_beBytes hn

theorem responseHeader_length (tag size code : Nat) : (responseHeader tag size code).length = 10 := by
  simp [responseHeader]

theorem responseCode_whole (tag size : Nat) (params : Bytes) : readU32 (responseHeader tag size 0 ++ params) 6 = 0 := by
  rw [responseHeader, List.append_assoc, List.append_assoc, ← List.append_assoc (beBytes 2 tag)]
  exact readU32_append (by simp) (by decide)

/-- The response code of what arrives. -/
theorem responseCode_take {tag size code n : Nat} {params : Bytes} (hcode : code < 2 ^ 32) (h : 10 ≤ n) :
    readU32 ((responseHeader tag size code ++ params).take n) 6 = code := by
  rw [readU32_take h, responseHeader, List.append_assoc, List.append_assoc, ← List.append_assoc (beBytes 2 tag)]
  exact readU32_append (by simp) hcode

/-- Too short, or with a code other than success. -/
def Fails (resp : Bytes) : Prop := resp.length < 10 ∨ readU32 resp 6 ≠ 0

theorem refusal_fails (code n : Nat) : Fails ((refusal code).take n) := by
  by_cases hn : n < 10
  · exact .inl (by rw [List.length_take]; omega)
  · have hcode := Nat.mod_lt code (show 0 < 2 ^ 32 - 1 by decide)
    refine .inr ?_
    rw [refusal, ← List.append_nil (responseHeader _ _ _), responseCode_take (by omega) (by omega)]
    omega

end Responses

section Exchange

/-- A command is not executed and its response fails, or it is executed and so much of the response
arrives. -/
inductive Exchange (context : Context) (cmd : Command) (t : Tpm) : Bytes → Tpm → Prop
  | failed {resp} (h : Fails resp) : Exchange context cmd t resp t
  | executed {params t' drawn} (arriving : Nat) (h : t.execute drawn context cmd = some (params, t')) :
      Exchange context cmd t ((responseHeader cmd.tag (10 + params.length) 0 ++ params).take arriving) t'

theorem nextOutcome_tpm (w : World) : (nextOutcome.run w).2.tpm = w.tpm := by
  change (nextOutcome w).2.tpm = w.tpm
  unfold nextOutcome
  split <;> rfl

theorem submit_exchange (context : Context) (cmd : Command) (arriving : Nat) (drawn : Drawn) (t : Tpm) :
    Triple (fun w => w.tpm = t) (submit context cmd arriving drawn) fun resp w => Exchange context cmd t resp w.tpm := by
  rintro w rfl
  change Exchange context cmd w.tpm (submit context cmd arriving drawn w).1 (submit context cmd arriving drawn w).2.tpm
  unfold submit
  cases hexec : w.tpm.execute drawn context cmd with
  | none => exact .failed (refusal_fails 0 arriving)
  | some r => exact .executed arriving hexec

/-- The context commands are sent in; one that is not open sends none. -/
def contextOf (tpm : TpmCommands) : Context := tpm.getD 0

theorem submitCommand_exchange (context : Context) (cmd : Command) (t : Tpm) :
    Triple (fun w => w.tpm = t) (submitCommand context cmd) fun resp w => Exchange context cmd t resp w.tpm := by
  refine .bind (Q := fun _ w => w.tpm = t) (fun w hw => (nextOutcome_tpm w).trans hw) fun outcome => ?_
  cases outcome with
  | unsent => exact .pure fun w hw => hw ▸ .failed (.inl (by decide))
  | refused code => exact .pure fun w hw => hw ▸ .failed (List.take_length (l := refusal code) ▸ refusal_fails code _)
  | executed arriving drawn => exact submit_exchange context cmd arriving drawn t

theorem sendCommand_exchange (tpm : TpmCommands) (cmd : Command) (t : Tpm) :
    Triple (fun w => w.tpm = t) (sendCommand tpm cmd) fun resp w => Exchange (contextOf tpm) cmd t resp w.tpm := by
  cases tpm with
  | none => exact .pure fun w hw => hw ▸ .failed (.inl (by decide))
  | some context => exact .bind (submitCommand_exchange context cmd t) fun _ _ h => h

variable {context : Context} {cmd : Command} {t t' : Tpm} {resp : Bytes}

/-- A command no execution of which changes the TPM. -/
theorem Exchange.same (h : Exchange context cmd t resp t')
    (hcmd : ∀ drawn params t'', t.execute drawn context cmd = some (params, t'') → t'' = t) : t' = t := by
  cases h with
  | failed _ => rfl
  | executed _ hexec => exact hcmd _ _ _ hexec

/-- A response that does not fail is that of an execution, of which ten bytes and more arrived. -/
theorem Exchange.delivered (h : Exchange context cmd t resp t') (hresp : ¬ Fails resp) :
    ∃ drawn params n, t.execute drawn context cmd = some (params, t') ∧ 10 ≤ n ∧
      resp = (responseHeader cmd.tag (10 + params.length) 0 ++ params).take n := by
  cases h with
  | failed h => exact absurd h hresp
  | executed n hexec =>
    refine ⟨_, _, n, hexec, ?_, rfl⟩
    have hlen := not_lt.mp (not_or.mp hresp).1
    rw [List.length_take] at hlen
    omega

end Exchange

section Creation

/-- A handle the TPM may give to a new object of the context. -/
def Tpm.Fresh (t : Tpm) (context : Context) (handle : Handle) : Prop :=
  isTransient handle = true ∧ t.objects.lookup (context, handle) = none

/-- A primary key is not created, or created and lost, or created with its handle known and its public
area too if the response came whole. -/
inductive Creation (hierarchy : Hierarchy) (context : Context) (t : Tpm) : Handle → Bytes → Tpm → Prop
  | refused : Creation hierarchy context t 0 [] t
  | lost {handle key} (h : t.Fresh context handle) :
      Creation hierarchy context t 0 [] (t.create hierarchy context handle key)
  | created {handle key publicArea} (h : t.Fresh context handle) (hpub : publicArea = [] ∨ publicArea = key.publicArea) :
      Creation hierarchy context t handle publicArea (t.create hierarchy context handle key)

theorem isTransient_range {handle : Nat} (h : isTransient handle = true) : 0 < handle ∧ handle < 2 ^ 32 := by
  have hdiv : handle / 2 ^ 24 = 0x80 := of_decide_eq_true h
  omega

theorem execute_createPrimary {hierarchy : Hierarchy} {context : Context} {t t' : Tpm} {drawn : Drawn}
    {params : Bytes} (h : t.execute drawn context (.createPrimary hierarchy) = some (params, t')) :
    t.Fresh context drawn.handle ∧ t' = t.create hierarchy context drawn.handle drawn.key ∧
      params = beBytes 4 drawn.handle ++ (beBytes 4 (drawn.key.publicArea.length + drawn.rest.length) ++
        (drawn.key.publicArea ++ drawn.rest)) := by
  simp only [Tpm.execute] at h
  split_ifs at h with hfresh
  obtain ⟨rfl, rfl⟩ := Prod.mk.inj (Option.some.inj h)
  exact ⟨hfresh, rfl, rfl⟩

theorem createdPublicArea_take {tag size handle paramSize : Nat} (key : Key) (rest : Bytes) (n : Nat) :
    createdPublicArea ((responseHeader tag size 0 ++ (beBytes 4 handle ++ (beBytes 4 paramSize ++
      (key.publicArea ++ rest)))).take n) = [] ∨
    createdPublicArea ((responseHeader tag size 0 ++ (beBytes 4 handle ++ (beBytes 4 paramSize ++
      (key.publicArea ++ rest)))).take n) = key.publicArea := by
  generalize hresp : (responseHeader tag size 0 ++ (beBytes 4 handle ++ (beBytes 4 paramSize ++
      (key.publicArea ++ rest)))).take n = resp
  simp only [createdPublicArea]
  split_ifs with _ _ hpub
  · refine .inr ?_
    have hle : resp.length ≤ n := by rw [← hresp, List.length_take]; omega
    have hsplit : responseHeader tag size 0 ++ (beBytes 4 handle ++ (beBytes 4 paramSize ++
        (key.publicArea ++ rest))) = (responseHeader tag size 0 ++ (beBytes 4 handle ++ beBytes 4 paramSize)) ++
          (beBytes 2 key.content.length ++ (key.content ++ rest)) := by
      simp only [Key.publicArea, List.append_assoc]
    have hfront : (responseHeader tag size 0 ++ (beBytes 4 handle ++ beBytes 4 paramSize)).length = 18 := by
      simp [responseHeader_length]
    have hsize : readU16 resp 18 = key.content.length := by
      rw [← hresp, readU16_take (by omega), hsplit, readU16_append hfront key.content_lt]
    have harea : beBytes 2 key.content.length ++ (key.content ++ rest) = key.publicArea ++ rest := by
      rw [Key.publicArea, List.append_assoc]
    have hwhole : 2 + key.content.length = key.publicArea.length := by simp [Key.publicArea]
    rw [hsize] at hpub ⊢
    rw [← hresp, List.drop_take, hsplit, ← hfront, List.drop_left, List.take_take, harea, hwhole, hfront,
      min_eq_left (by omega), List.take_left]
  all_goals exact .inl rfl

private theorem createPrimary_handle {hierarchy : Hierarchy} {context : Context} {t t' : Tpm} {resp : Bytes}
    (h : Exchange context (.createPrimary hierarchy) t resp t') :
    Creation hierarchy context t (if resp.length < 14 then 0 else if readU32 resp 6 ≠ 0 then 0 else readU32 resp 10)
      (if resp.length < 14 then [] else if readU32 resp 6 ≠ 0 then [] else createdPublicArea resp) t' := by
  cases h with
  | failed h =>
    rcases h with hlen | hcode
    · rw [if_pos (by omega), if_pos (by omega)]
      exact .refused
    · rw [if_pos hcode, if_pos hcode]
      simp only [ite_self]
      exact .refused
  | executed n hexec =>
    obtain ⟨hfresh, rfl, rfl⟩ := execute_createPrimary hexec
    split_ifs with hlen hcode
    · exact .lost hfresh
    · exact .lost hfresh
    · have hn : 14 ≤ n := by
        rw [List.length_take] at hlen
        omega
      rw [readU32_take (by omega), readU32_append (responseHeader_length _ _ _) (isTransient_range hfresh.1).2]
      exact .created hfresh (createdPublicArea_take _ _ n)

theorem createEk_creation (tpm : TpmCommands) (t : Tpm) : Triple (fun w => w.tpm = t) (createEk tpm)
    fun handle w => ∃ publicArea, Creation .endorsement (contextOf tpm) t handle publicArea w.tpm := by
  refine .bind (sendCommand_exchange tpm _ t) fun resp w h =>
    ⟨if resp.length < 14 then [] else if readU32 resp 6 ≠ 0 then [] else createdPublicArea resp, ?_⟩
  have hcreation := createPrimary_handle h
  split_ifs at hcreation ⊢
  · exact hcreation
  · exact hcreation
  · exact hcreation

theorem createAndLoadAk_creation (tpm : TpmCommands) (t : Tpm) :
    Triple (fun w => w.tpm = t) (createAndLoadAk tpm)
      fun r w => Creation .owner (contextOf tpm) t r.1 r.2 w.tpm := by
  refine .bind (sendCommand_exchange tpm _ t) fun resp w h => ?_
  have hcreation := createPrimary_handle h
  split_ifs at hcreation ⊢
  · exact hcreation
  · exact hcreation
  · exact hcreation

end Creation

section Flush

theorem Exchange.flush {context : Context} {handle : Handle} {t t' : Tpm} {resp : Bytes}
    (h : Exchange context (.flushContext handle) t resp t') :
    t' = t ∨ isTransient handle = true ∧ t' = t.flush context handle := by
  cases h with
  | failed _ => exact .inl rfl
  | executed _ hexec =>
    obtain ⟨-, rfl⟩ := Prod.mk.inj (Option.some.inj hexec)
    split_ifs with htransient
    · exact .inr ⟨htransient, rfl⟩
    · exact .inl rfl

theorem flushHandle_flush (tpm : TpmCommands) (handle : Handle) (t : Tpm) :
    Triple (fun w => w.tpm = t) (flushHandle tpm handle) fun _ w =>
      w.tpm = t ∨ isTransient handle = true ∧ w.tpm = t.flush (contextOf tpm) handle :=
  .ite (fun _ => .bind (sendCommand_exchange tpm _ t) fun _ => .pure fun _ h => h.flush) fun _ => .pure fun _ => .inl

end Flush

section Activation

theorem isSession_range {handle : Nat} (h : isSession handle = true) : 0 < handle ∧ handle < 2 ^ 32 := by
  have hdiv : handle / 2 ^ 24 = 0x03 := of_decide_eq_true h
  omega

theorem isSession_not_transient {handle : Nat} (h : isSession handle = true) : ¬ isTransient handle = true := by
  have hdiv : handle / 2 ^ 24 = 0x03 := of_decide_eq_true h
  simp only [isTransient, decide_eq_true_eq, hdiv]
  decide

theorem startedSession_take {size handle : Nat} (rest : Bytes) (n : Nat) (hsession : isSession handle = true) :
    ∀ session ∈ startedSession ((responseHeader 0x8001 size 0 ++ (beBytes 4 handle ++ rest)).take n),
      isSession session = true := by
  generalize hresp : (responseHeader 0x8001 size 0 ++ (beBytes 4 handle ++ rest)).take n = resp
  intro session hmem
  unfold startedSession at hmem
  by_cases hlen : resp.length < 14
  · rw [if_pos hlen] at hmem
    cases hmem
  have hn : 14 ≤ n := by
    rw [← hresp, List.length_take] at hlen
    omega
  have htag : readU16 resp 0 = 0x8001 := by
    rw [← hresp, readU16_take (by omega), responseHeader, List.append_assoc]
    exact readU16_append (a := []) rfl (by decide)
  have hhandle : readU32 resp 10 = handle := by
    rw [← hresp, readU32_take (by omega), readU32_append (responseHeader_length _ _ _) (isSession_range hsession).2]
  simp only [htag, hhandle, if_neg (show ¬ 0x8001 = 0x8002 by decide), if_neg hlen] at hmem
  split_ifs at hmem
  · cases hmem
  · exact Option.some.inj hmem ▸ hsession

theorem execute_startAuthSession {context : Context} {t t' : Tpm} {drawn : Drawn} {params : Bytes}
    (h : t.execute drawn context .startAuthSession = some (params, t')) :
    isSession drawn.handle = true ∧ t' = t ∧ params = beBytes 4 drawn.handle ++ drawn.rest := by
  simp only [Tpm.execute] at h
  split_ifs at h with hsession
  obtain ⟨rfl, rfl⟩ := Prod.mk.inj (Option.some.inj h)
  exact ⟨hsession, rfl, rfl⟩

theorem Exchange.session {context : Context} {t t' : Tpm} {resp : Bytes}
    (h : Exchange context .startAuthSession t resp t') :
    t' = t ∧ ∀ session ∈ startedSession resp, isSession session = true := by
  cases h with
  | failed h =>
    refine ⟨rfl, fun session hmem => ?_⟩
    simp only [startedSession] at hmem
    rcases h with hlen | hcode
    · rw [if_pos (by omega)] at hmem
      cases hmem
    · rw [if_pos hcode, ite_self] at hmem
      cases hmem
  | executed n hexec =>
    obtain ⟨hsession, rfl, rfl⟩ := execute_startAuthSession hexec
    exact ⟨rfl, startedSession_take _ n hsession⟩

/-- No secret is released, or the one sealed to the keys behind the two handles is; what the client
gets is not empty only if the secret is not. -/
inductive Activation (context : Context) (akHandle ekHandle : Handle) (t : Tpm) : Bytes → Tpm → Prop
  | refused : Activation context akHandle ekHandle t [] t
  | released {ak ek secret received} (hak : t.keyAt context akHandle = some ak) (hek : t.keyAt context ekHandle = some ek)
      (h : received ≠ [] → secret ≠ []) :
      Activation context akHandle ekHandle t received (t.record (.activated ak ek secret))

theorem execute_activateCredential {context : Context} {akHandle ekHandle session : Handle} {cb es : Bytes} {t t' : Tpm}
    {drawn : Drawn} {params : Bytes}
    (h : t.execute drawn context (.activateCredential akHandle ekHandle session cb es) = some (params, t')) :
    ∃ ak ek secret, t.keyAt context akHandle = some ak ∧ t.keyAt context ekHandle = some ek ∧
      t' = t.record (.activated ak ek secret) ∧
      params = beBytes 4 (2 + secret.length) ++ (beBytes 2 secret.length ++ (secret ++ drawn.rest)) := by
  simp only [Tpm.execute] at h
  cases hak : t.keyAt context akHandle with
  | none => simp [hak] at h
  | some ak =>
    cases hek : t.keyAt context ekHandle with
    | none => simp [hak, hek] at h
    | some ek =>
      simp only [hak, hek] at h
      cases hopen : t.openCredential ak ek cb es with
      | none => simp [hopen] at h
      | some secret =>
        simp only [hopen] at h
        obtain ⟨rfl, rfl⟩ := Prod.mk.inj (Option.some.inj h)
        exact ⟨ak, ek, secret, rfl, rfl, rfl, rfl⟩

theorem recoveredSecret_fails {resp : Bytes} (h : Fails resp) : recoveredSecret resp = [] := by
  unfold recoveredSecret
  rcases h with hlen | hcode
  · rw [if_pos hlen]
  · rw [if_pos hcode, ite_self]

/-- An empty secret is not received as another. -/
theorem recoveredSecret_nil {tag size paramSize : Nat} (rest : Bytes) (n : Nat) :
    recoveredSecret ((responseHeader tag size 0 ++ (beBytes 4 paramSize ++ (beBytes 2 0 ++ rest))).take n) = [] := by
  generalize hresp : (responseHeader tag size 0 ++ (beBytes 4 paramSize ++ (beBytes 2 0 ++ rest))).take n = resp
  unfold recoveredSecret
  by_cases hlen : resp.length < 16
  · simp only [if_pos (show resp.length < 16 + readU16 resp 14 by omega), ite_self]
  have hn : 16 ≤ n := by
    rw [← hresp, List.length_take] at hlen
    omega
  have hsize : readU16 resp 14 = 0 := by
    rw [← hresp, readU16_take (by omega), ← List.append_assoc]
    exact readU16_append (by simp [responseHeader_length]) (by decide)
  simp only [hsize, List.take_zero, ite_self]

theorem Exchange.activation {context : Context} {akHandle ekHandle session : Handle} {cb es : Bytes} {t t' : Tpm}
    {resp : Bytes} (h : Exchange context (.activateCredential akHandle ekHandle session cb es) t resp t') :
    Activation context akHandle ekHandle t (recoveredSecret resp) t' := by
  cases h with
  | failed h =>
    rw [recoveredSecret_fails h]
    exact .refused
  | executed n hexec =>
    obtain ⟨ak, ek, secret, hak, hek, rfl, rfl⟩ := execute_activateCredential hexec
    refine .released hak hek fun hne hnil => hne ?_
    subst hnil
    exact recoveredSecret_nil _ n

theorem activateInSession_activation (tpm : TpmCommands) (akHandle ekHandle session : Handle) (cb es : Bytes) (t : Tpm) :
    Triple (fun w => w.tpm = t) (activateInSession tpm akHandle ekHandle session cb es) fun secret w =>
      Activation (contextOf tpm) akHandle ekHandle t secret w.tpm := by
  have hrefused : Triple (fun w => w.tpm = t) (Pure.pure [] : Tbs Bytes) fun secret w =>
      Activation (contextOf tpm) akHandle ekHandle t secret w.tpm := .pure fun w h => h ▸ .refused
  refine .bind ((sendCommand_exchange tpm _ t).post fun resp w h => ?_) fun policyResp =>
    .ite (fun _ => hrefused) fun _ => .ite (fun _ => hrefused) fun _ => ?_
  · exact h.same fun drawn params t'' hexec => (Prod.mk.inj (Option.some.inj hexec)).2.symm
  · exact .bind (sendCommand_exchange tpm _ t) fun resp => .pure fun w h => h.activation

theorem activateCredential_activation (tpm : TpmCommands) (akHandle ekHandle : Handle) (cb es : Bytes) (t : Tpm) :
    Triple (fun w => w.tpm = t) (activateCredential tpm akHandle ekHandle cb es) fun secret w =>
      Activation (contextOf tpm) akHandle ekHandle t secret w.tpm := by
  refine .bind ((sendCommand_exchange tpm _ t).post fun resp w h => h.session) fun startResp => ?_
  cases hsession : startedSession startResp with
  | none => exact .pure fun w h => h.1 ▸ .refused
  | some session =>
    refine .assume (fun w h => h.2 session rfl) fun htransient => ?_
    refine .bind ((activateInSession_activation tpm akHandle ekHandle session cb es t).pre fun w h => h.1)
      fun secret => ?_
    refine .bind (fun w h => ?_) fun _ => .pure fun _ h => h
    rcases flushHandle_flush tpm session w.tpm w rfl with hsame | ⟨hflushed, -⟩
    · rw [hsame]
      exact h
    · exact absurd hflushed (isSession_not_transient htransient)

end Activation

section Eviction

theorem succeeded_iff (resp : Bytes) : succeeded resp = true ↔ ¬ Fails resp := by
  unfold succeeded Fails
  by_cases hlen : resp.length < 10
  · simp [hlen]
  · simp [hlen]

theorem isPersistentPresent_presence (tpm : TpmCommands) (t : Tpm) :
    Triple (fun w => w.tpm = t) (isPersistentPresent tpm kTbsAkPersistentHandle) fun present w =>
      w.tpm = t ∧ (present = true → t.persistent ≠ none) := by
  refine .bind (sendCommand_exchange tpm _ t) fun resp => .pure fun w h => ?_
  have hexecute : ∀ drawn params t'', t.execute drawn (contextOf tpm) (.readPublic kTbsAkPersistentHandle) =
      some (params, t'') → t'' = t ∧ t.persistent ≠ none := by
    intro drawn params t'' hexec
    obtain ⟨key, hkey, heq⟩ := Option.map_eq_some_iff.mp hexec
    exact ⟨(Prod.mk.inj heq).2.symm, fun hnone => by simp [Tpm.keyAt, hnone] at hkey⟩
  refine ⟨h.same fun drawn params t'' hexec => (hexecute _ _ _ hexec).1, fun hpresent => ?_⟩
  obtain ⟨drawn, params, n, hexec, -⟩ := h.delivered ((succeeded_iff resp).mp hpresent)
  exact (hexecute _ _ _ hexec).2

/-- The slot is kept, cleared, or holds the key behind the handle afterwards, whatever the client is
told; told success, it holds the key. -/
inductive Eviction (context : Context) (handle : Handle) (t : Tpm) : Bool → Tpm → Prop
  | kept : Eviction context handle t false t
  | cleared {evicted} (h : evicted = true → handle = kTbsAkPersistentHandle) :
      Eviction context handle t evicted t.clear
  | stored {key evicted} (hkey : t.keyAt context handle = some key) : Eviction context handle t evicted (t.store key)
  | replaced {key evicted} (hkey : t.keyAt context handle = some key) :
      Eviction context handle t evicted (t.clear.store key)

variable {context : Context} {handle : Handle} {t t' : Tpm}

theorem execute_clear {drawn : Drawn} {params : Bytes}
    (h : t.execute drawn context (.evictControl kTbsAkPersistentHandle kTbsAkPersistentHandle) = some (params, t')) :
    t.persistent ≠ none ∧ t' = t.clear := by
  simp only [Tpm.execute, ne_eq, not_true_eq_false, if_false, if_true] at h
  obtain ⟨key, hkey, heq⟩ := Option.map_eq_some_iff.mp h
  exact ⟨fun hnone => by simp [hnone] at hkey, (Prod.mk.inj heq).2.symm⟩

theorem execute_store (hhandle : handle ≠ kTbsAkPersistentHandle) {drawn : Drawn} {params : Bytes}
    (h : t.execute drawn context (.evictControl handle kTbsAkPersistentHandle) = some (params, t')) :
    ∃ key, t.objects.lookup (context, handle) = some key ∧ t' = t.store key := by
  simp only [Tpm.execute, ne_eq, not_true_eq_false, if_false, if_neg hhandle, Tpm.keyAt] at h
  cases hslot : t.persistent with
  | some _ => simp [hslot] at h
  | none =>
    cases hkey : t.objects.lookup (context, handle) with
    | none => simp [hslot, hkey] at h
    | some key =>
      simp only [hslot, hkey] at h
      exact ⟨key, rfl, (Prod.mk.inj (Option.some.inj h)).2.symm⟩

theorem execute_evictControl {persistentHandle : Handle} {drawn : Drawn} {params : Bytes}
    (h : t.execute drawn context (.evictControl handle persistentHandle) = some (params, t')) :
    t'.objects = t.objects ∧ t'.contexts = t.contexts ∧ t'.openCredential = t.openCredential := by
  by_cases hpersistent : persistentHandle = kTbsAkPersistentHandle
  · subst hpersistent
    by_cases hhandle : handle = kTbsAkPersistentHandle
    · subst hhandle
      obtain ⟨-, rfl⟩ := execute_clear h
      exact ⟨rfl, rfl, rfl⟩
    · obtain ⟨key, -, rfl⟩ := execute_store hhandle h
      exact ⟨rfl, rfl, rfl⟩
  · rw [Tpm.execute, if_pos hpersistent] at h
    cases h

theorem Exchange.evict {resp : Bytes} (h : Exchange context (.evictControl handle kTbsAkPersistentHandle) t resp t') :
    t' = t ∧ succeeded resp = false ∨
      (handle = kTbsAkPersistentHandle ∧ t.persistent ≠ none ∧ t' = t.clear) ∨
      ∃ key, handle ≠ kTbsAkPersistentHandle ∧ t.objects.lookup (context, handle) = some key ∧ t' = t.store key := by
  cases h with
  | failed h => exact .inl ⟨rfl, Bool.eq_false_iff.mpr fun hsucc => (succeeded_iff resp).mp hsucc h⟩
  | executed n hexec =>
    by_cases hhandle : handle = kTbsAkPersistentHandle
    · subst hhandle
      exact .inr (.inl ⟨rfl, execute_clear hexec⟩)
    · obtain ⟨key, hkey, rfl⟩ := execute_store hhandle hexec
      exact .inr (.inr ⟨key, hhandle, hkey, rfl⟩)

theorem clearPersistent_clears (tpm : TpmCommands) (t : Tpm) :
    Triple (fun w => w.tpm = t) (clearPersistent tpm kTbsAkPersistentHandle) fun _ w =>
      w.tpm = t ∨ w.tpm = t.clear := by
  refine .bind (isPersistentPresent_presence tpm t) fun present => .ite (fun _ => ?_) fun _ => .pure fun w h => .inl h.1
  refine .bind ((sendCommand_exchange tpm _ t).pre fun w h => h.1) fun resp => .pure fun w h => ?_
  cases h with
  | failed _ => exact .inl rfl
  | executed _ hexec => exact .inr (execute_clear hexec).2

theorem Eviction.of_exchange {t₁ : Tpm} {resp : Bytes} (h : t₁ = t ∨ t₁ = t.clear)
    (hex : Exchange context (.evictControl handle kTbsAkPersistentHandle) t₁ resp t') :
    Eviction context handle t (succeeded resp) t' := by
  rcases h with rfl | rfl
  · rcases hex.evict with ⟨rfl, hfail⟩ | ⟨hhandle, -, rfl⟩ | ⟨key, hhandle, hkey, rfl⟩
    · rw [hfail]
      exact .kept
    · exact .cleared fun _ => hhandle
    · exact .stored (by rw [Tpm.keyAt, if_neg hhandle, hkey])
  · rcases hex.evict with ⟨rfl, hfail⟩ | ⟨-, hslot, -⟩ | ⟨key, hhandle, hkey, rfl⟩
    · rw [hfail]
      exact .cleared fun h => by cases h
    · exact absurd rfl hslot
    · exact .replaced (by rw [Tpm.keyAt, if_neg hhandle]; exact hkey)

theorem evictControl_eviction (tpm : TpmCommands) (handle : Handle) (t : Tpm) :
    Triple (fun w => w.tpm = t) (evictControl tpm handle kTbsAkPersistentHandle) fun evicted w =>
      Eviction (contextOf tpm) handle t evicted w.tpm := by
  refine .bind (clearPersistent_clears tpm t) fun ready => .ite (fun _ => ?_) fun _ => .pure fun w h => ?_
  · exact .bind (fun w h => .of_exchange h (sendCommand_exchange tpm _ w.tpm w rfl)) fun resp => .pure fun w h => h
  · rcases h with hsame | hclear
    · exact hsame ▸ .kept
    · exact hclear ▸ .cleared fun h => by cases h

end Eviction
end RootHerald.Windows
