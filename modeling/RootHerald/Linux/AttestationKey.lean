import RootHerald.Linux.Client

/-! The attestation key over whole runs of the Linux driver: every call creates its own. -/
namespace RootHerald.Linux
open Lib

section Steady
variable {α β : Type}

/-- The program never takes back a key pair that was drawn. -/
def Steady (x : Esys α) : Prop := ∀ w, w.tpm.drawn ≤ (x.run w).2.tpm.drawn

namespace Steady

theorem pure (a : α) : Steady (Pure.pure a) := fun _ => le_refl _

theorem bind {x : Esys α} {f : α → Esys β} (hx : Steady x) (hf : ∀ a, Steady (f a)) : Steady (x >>= f) :=
  fun w => (hx w).trans (hf _ _)

theorem ite {c : Prop} [Decidable c] {x y : Esys α} (hx : Steady x) (hy : Steady y) :
    Steady (if c then x else y) := by
  split_ifs
  · exact hx
  · exact hy

end Steady

theorem call_tpm (w : World) : (call.run w).2.tpm = w.tpm := by
  change (call w).2.tpm = w.tpm
  unfold call
  split <;> rfl

theorem call_steady : Steady call := fun w => le_of_eq (by rw [call_tpm])

theorem load_steady (key : Key) : Steady (load key) := fun _ => le_refl _

theorem keyAt_steady (handle : Handle) : Steady (keyAt handle) := fun _ => le_refl _

theorem esysCreatePrimary_steady (hierarchy : Hierarchy) (template : Template) :
    Steady (esysCreatePrimary hierarchy template) :=
  .bind call_steady fun _ => .ite (.bind (load_steady _) fun _ => .pure _) (.pure _)

theorem esysReadPublic_steady (handle : Handle) : Steady (esysReadPublic handle) :=
  .bind call_steady fun _ => .ite (keyAt_steady handle) (.pure _)

theorem esysFlushContext_steady (handle : Handle) : Steady (esysFlushContext handle) :=
  .bind call_steady fun _ => .ite (fun _ => le_refl _) (.pure _)

theorem flushHandle_steady (handle : Option Handle) : Steady (flushHandle handle) := by
  cases handle with
  | none => exact .pure _
  | some handle => exact esysFlushContext_steady handle

theorem tpmOpen_steady : Steady tpmOpen := .bind call_steady fun _ => .ite (.pure _) (.pure _)

theorem tpmClose_steady (ctx : TpmContext) : Steady (tpmClose ctx) :=
  .bind (flushHandle_steady _) fun _ => .bind (flushHandle_steady _) fun _ => flushHandle_steady _

theorem tpmReadEkPub_steady (ctx : TpmContext) : Steady (tpmReadEkPub ctx) := by
  refine .bind (flushHandle_steady _) fun _ => .bind (esysCreatePrimary_steady _ _) fun primary => ?_
  cases primary with
  | none => exact .pure _
  | some p => exact .bind call_steady fun _ => .ite (.pure _) (.pure _)

theorem tpmGetAkName_steady (ctx : TpmContext) : Steady (tpmGetAkName ctx) := by
  unfold tpmGetAkName
  cases ctx.akHandle with
  | none => exact .pure _
  | some handle => exact esysReadPublic_steady handle

theorem tpmActivateCredential_steady (ctx : TpmContext) (credBlobLen secretLen : Nat) :
    Steady (tpmActivateCredential ctx credBlobLen secretLen) :=
  .ite (.pure _) <| .ite (.pure _) <| .ite (.pure _) <| .bind call_steady fun _ => .ite
    (.bind call_steady fun _ => .ite call_steady (.bind call_steady fun _ => .pure _)) (.pure _)

theorem postEnrollment_steady (tpm : TpmContext) (ak : Key) (reply : EnrollReply) (activateCode : Int) :
    Steady (postEnrollment tpm ak reply activateCode) := by
  have hclose := tpmClose_steady tpm
  refine .ite (.bind hclose fun _ => .pure _) ?_
  refine .ite (.bind hclose fun _ => .ite (.pure _) (.pure _)) ?_
  refine .bind (tpmActivateCredential_steady tpm _ _) fun _ => .ite ?_ (.bind hclose fun _ => .pure _)
  exact .bind hclose fun _ => .ite (.pure _) (.pure _)

theorem rootHeraldGetStatus_steady (outStatus available : Bool) (deviceIdFile : Option Bytes) :
    Steady (rootHeraldGetStatus outStatus available deviceIdFile) := by
  refine .ite (.pure _) (.ite (.pure _) (.bind tpmOpen_steady fun tpm => ?_))
  cases tpm with
  | none => exact .pure _
  | some tpm => exact .bind (tpmClose_steady tpm) fun _ => .pure _

end Steady

section Fresh

/-- A key pair drawn from lo on and before hi. -/
def Drawn (lo hi : Nat) (key : Key) : Prop := ∃ n, key = .created n ∧ lo ≤ n ∧ n < hi

/-- Key pairs were drawn up to lo at least, and the given one since. -/
def Fresh (lo : Nat) (key : Option Key) (w : World) : Prop :=
  lo ≤ w.tpm.drawn ∧ ∀ k ∈ key, Drawn lo w.tpm.drawn k

theorem Fresh.steady {α : Type} {x : Esys α} (hx : Steady x) (lo : Nat) (key : Option Key) :
    Triple (Fresh lo key) x fun _ => Fresh lo key := by
  rintro w ⟨hlo, hkey⟩
  refine ⟨hlo.trans (hx w), fun k hk => ?_⟩
  obtain ⟨n, rfl, hn, hlt⟩ := hkey k hk
  exact ⟨n, rfl, hn, hlt.trans_le (hx w)⟩

/-- The handle of the attestation key holds a key pair drawn since lo. -/
def AkFresh (lo : Nat) (ctx : TpmContext) (w : World) : Prop :=
  lo ≤ w.tpm.drawn ∧ ∃ handle key, ctx.akHandle = some handle ∧ w.tpm.objects.lookup handle = some key ∧
    Drawn lo w.tpm.drawn key

/-- Since lo nothing is claimed of a key. -/
private theorem Fresh.none {lo : Nat} {w : World} (h : lo ≤ w.tpm.drawn) : Fresh lo none w :=
  ⟨h, fun _ hk => by cases hk⟩

theorem esysCreate_fresh (lo : Nat) : Triple (fun w => lo ≤ w.tpm.drawn) esysCreate (Fresh lo) := by
  refine .bind (Q := fun _ w => lo ≤ w.tpm.drawn) (fun w hw => hw.trans (call_steady w)) fun _ => .ite (fun _ => ?_)
    fun _ => .pure fun _ => Fresh.none
  refine fun w hw => ⟨Nat.le_succ_of_le hw, fun k hk => ?_⟩
  cases hk
  exact ⟨w.tpm.drawn, rfl, hw, Nat.lt_succ_self _⟩

private theorem le_steady {α : Type} {x : Esys α} (hx : Steady x) (lo : Nat) :
    Triple (fun w => lo ≤ w.tpm.drawn) x fun _ w => lo ≤ w.tpm.drawn :=
  fun w hw => hw.trans (hx w)

theorem esysLoad_fresh (lo : Nat) (key : Key) : Triple (Fresh lo (some key)) (esysLoad key) fun handle w =>
    lo ≤ w.tpm.drawn ∧ ∀ h ∈ handle, w.tpm.objects.lookup h = some key ∧ Drawn lo w.tpm.drawn key := by
  refine .bind (Fresh.steady call_steady lo _) fun _ => .ite (fun _ => ?_) fun _ =>
    .pure fun _ h => ⟨h.1, fun _ hh => by cases hh⟩
  rintro w ⟨hlo, hkey⟩
  refine ⟨hlo, fun h hh => ?_⟩
  cases hh
  exact ⟨List.lookup_cons_self, hkey key rfl⟩

/-- tpm_create_ak leaves a new key at the handle. -/
theorem tpmCreateAk_fresh (lo : Nat) (ctx : TpmContext) : Triple (fun w => lo ≤ w.tpm.drawn) (tpmCreateAk ctx)
    fun r w => lo ≤ w.tpm.drawn ∧ (r.1 = true → AkFresh lo r.2 w) := by
  have hfail : ∀ {ctx : TpmContext} {w : World}, lo ≤ w.tpm.drawn →
      lo ≤ w.tpm.drawn ∧ (false = true → AkFresh lo ctx w) := fun h => ⟨h, fun hf => by cases hf⟩
  unfold tpmCreateAk
  refine .bind (le_steady (flushHandle_steady _) lo) fun _ =>
    .bind (le_steady (esysCreatePrimary_steady _ _) lo) fun primary => ?_
  cases primary with
  | none => exact .pure fun _ => hfail
  | some p =>
    refine .bind (esysCreate_fresh lo) fun key => ?_
    cases key with
    | none => exact .pure fun _ h => hfail h.1
    | some key =>
      refine .bind (Fresh.steady (flushHandle_steady _) lo (some key)) fun _ => .bind (esysLoad_fresh lo key) fun ak => ?_
      cases ak with
      | none => exact .pure fun _ h => hfail h.1
      | some akHandle => exact .pure fun w h => ⟨h.1, fun _ => ⟨h.1, akHandle, key, rfl, h.2 _ rfl⟩⟩

theorem esysReadPublic_fresh (lo : Nat) (handle : Handle) (key : Key) :
    Triple (fun w => w.tpm.objects.lookup handle = some key ∧ Fresh lo (some key) w) (esysReadPublic handle)
      (Fresh lo) := by
  refine .bind (Q := fun _ w => w.tpm.objects.lookup handle = some key ∧ Fresh lo (some key) w) ?_ fun _ =>
    .ite (fun _ => ?_) fun _ => .pure fun _ h => Fresh.none h.2.1
  · rintro w ⟨hlookup, hfresh⟩
    unfold Fresh
    rw [call_tpm]
    exact ⟨hlookup, hfresh⟩
  · rintro w ⟨hlookup, hfresh⟩
    change Fresh lo (w.tpm.objects.lookup handle) w
    rwa [hlookup]

theorem tpmGetAkPub_fresh (lo : Nat) (ctx : TpmContext) : Triple (AkFresh lo ctx) (tpmGetAkPub ctx) (Fresh lo) := by
  rintro w ⟨hlo, handle, key, hctx, hlookup, hdrawn⟩
  have hfresh : Fresh lo (some key) w := ⟨hlo, fun k hk => by cases hk; exact hdrawn⟩
  unfold tpmGetAkPub
  rw [hctx]
  refine Triple.bind (esysReadPublic_fresh lo handle key) (fun read => ?_) w ⟨hlookup, hfresh⟩
  cases read with
  | none => exact .pure fun _ h => h
  | some key =>
    exact .bind (Fresh.steady call_steady lo _) fun _ =>
      .ite (fun _ => .pure fun _ h => h) fun _ => .pure fun _ h => Fresh.none h.1

theorem postEnrollment_posted (tpm : TpmContext) (ak : Key) (reply : EnrollReply) (activateCode : Int) :
    Triple (fun _ => True) (postEnrollment tpm ak reply activateCode) fun r _ => r.posted = some ak := by
  refine .ite (fun _ => .bind (.frame _) fun _ => .pure fun _ _ => rfl) fun _ => .ite (fun _ => ?_) fun _ => ?_
  · exact .bind (.frame _) fun _ => .ite (fun _ => .pure fun _ _ => rfl) fun _ => .pure fun _ _ => rfl
  refine .bind (.frame _) fun activated => .ite (fun _ => ?_) fun _ => ?_
  · exact .bind (.frame _) fun _ => .ite (fun _ => .pure fun _ _ => rfl) fun _ => .pure fun _ _ => rfl
  · exact .bind (.frame _) fun _ => .pure fun _ _ => rfl

/-- What Enroll posts is a key pair drawn in the call. -/
theorem rootHeraldEnroll_fresh (lo : Nat) (serverUrl : Option CString) (outInfo : Bool) (reply : EnrollReply)
    (activateCode : Int) : Triple (fun w => lo ≤ w.tpm.drawn)
      (rootHeraldEnroll serverUrl outInfo reply activateCode) fun r => Fresh lo r.posted := by
  unfold rootHeraldEnroll
  refine .ite (fun _ => .pure fun _ => Fresh.none) fun _ => .bind (le_steady tpmOpen_steady lo) fun tpm => ?_
  cases tpm with
  | none => exact .pure fun _ => Fresh.none
  | some tpm =>
    have hclose : ∀ {tpm : TpmContext} {status : RootHeraldResult}, Triple (fun w => lo ≤ w.tpm.drawn)
        (tpmClose tpm >>= fun _ => Pure.pure { status := status }) fun r : EnrollResult => Fresh lo r.posted :=
      .bind (le_steady (tpmClose_steady _) lo) fun _ => .pure fun _ => Fresh.none
    refine .bind (le_steady (tpmReadEkPub_steady tpm) lo) fun (ekPub, tpm) => .ite (fun _ => hclose) fun _ => ?_
    refine .bind (tpmCreateAk_fresh lo tpm) fun (created, tpm) => ?_
    refine .ite (fun _ => hclose.pre fun _ h => h.1) fun hcreated => ?_
    refine .bind ((tpmGetAkPub_fresh lo tpm).pre fun _ h => h.2 (not_not.mp hcreated)) fun ak => ?_
    cases ak with
    | none => exact hclose.pre fun _ h => h.1
    | some ak =>
      refine .bind (Fresh.steady (tpmGetAkName_steady tpm) lo (some ak)) fun akName => ?_
      cases akName with
      | none => exact hclose.pre fun _ h => h.1
      | some _ =>
        intro w hw
        rw [postEnrollment_posted tpm ak reply activateCode w trivial]
        exact Fresh.steady (postEnrollment_steady tpm ak reply activateCode) lo (some ak) w hw

/-- What holds of every result that is not OK and empty, and of the result behind the post, Enroll returns. -/
theorem rootHeraldEnroll_returns {reply : EnrollReply} {activateCode : Int} {P : EnrollResult → Prop}
    (serverUrl : Option CString) (outInfo : Bool) (hfailed : ∀ status : RootHeraldResult, status ≠ .ok → P { status })
    (hposted : ∀ tpm ak, Triple (fun _ => True) (postEnrollment tpm ak reply activateCode) fun r _ => P r) :
    Triple (fun _ => True) (rootHeraldEnroll serverUrl outInfo reply activateCode) fun r _ => P r := by
  have hclose : ∀ {tpm : TpmContext} {status : RootHeraldResult}, status ≠ .ok → Triple (fun _ => True)
      (tpmClose tpm >>= fun _ => Pure.pure { status := status }) fun (r : EnrollResult) _ => P r :=
    fun h => .bind (.frame _) fun _ => .pure fun _ _ => hfailed _ h
  unfold rootHeraldEnroll
  refine .ite (fun _ => .pure fun _ _ => hfailed _ (by decide)) fun _ => .bind (.frame _) fun tpm => ?_
  cases tpm with
  | none => exact .pure fun _ _ => hfailed _ (by decide)
  | some tpm =>
    refine .bind (.frame _) fun (ekPub, tpm) => .ite (fun _ => hclose (by decide)) fun _ => ?_
    refine .bind (.frame _) fun (created, tpm) => .ite (fun _ => hclose (by decide)) fun _ => ?_
    refine .bind (.frame _) fun ak => ?_
    cases ak with
    | none => exact hclose (by decide)
    | some ak =>
      refine .bind (.frame _) fun akName => ?_
      cases akName with
      | none => exact hclose (by decide)
      | some _ => exact hposted tpm ak

/-- Enroll returns OK only after it posted a public area. -/
theorem rootHeraldEnroll_posted (serverUrl : Option CString) (outInfo : Bool) (reply : EnrollReply)
    (activateCode : Int) : Triple (fun _ => True) (rootHeraldEnroll serverUrl outInfo reply activateCode)
      fun r _ => r.status = .ok → ∃ key, r.posted = some key := by
  apply rootHeraldEnroll_returns (P := fun r => r.status = .ok → ∃ key, r.posted = some key)
  · intro status hne hok
    exact absurd hok hne
  · intro tpm ak
    exact (postEnrollment_posted tpm ak reply activateCode).post fun _ _ h _ => ⟨ak, h⟩

/-- What is quoted with, when a quote is reached, was drawn since lo. -/
def QuoteFresh (lo : Nat) (quote : Option QuoteCall) (w : World) : Prop :=
  lo ≤ w.tpm.drawn ∧ ∀ q ∈ quote, ∃ key, q.key = some key ∧ Drawn lo w.tpm.drawn key

private theorem QuoteFresh.none {lo : Nat} {w : World} (h : lo ≤ w.tpm.drawn) : QuoteFresh lo none w :=
  ⟨h, fun _ hq => by cases hq⟩

theorem tpmQuote_fresh (lo : Nat) (ctx : TpmContext) (nonce : Bytes) (nonceLen : Nat) :
    Triple (AkFresh lo ctx) (tpmQuote ctx nonce nonceLen) fun r => QuoteFresh lo r.2 := by
  rintro w ⟨hlo, handle, key, hctx, hlookup, hdrawn⟩
  unfold tpmQuote
  rw [hctx]
  change QuoteFresh lo (some ⟨w.tpm.objects.lookup handle, _⟩) (call.run w).2
  rw [hlookup, QuoteFresh, call_tpm]
  refine ⟨hlo, fun q hq => ?_⟩
  cases hq
  exact ⟨key, rfl, hdrawn⟩

private theorem QuoteFresh.steady {α : Type} {x : Esys α} (hx : Steady x) (lo : Nat) (quote : Option QuoteCall) :
    Triple (QuoteFresh lo quote) x fun _ => QuoteFresh lo quote := by
  rintro w ⟨hlo, hquote⟩
  refine ⟨hlo.trans (hx w), fun q hq => ?_⟩
  obtain ⟨key, hkey, n, rfl, hn, hlt⟩ := hquote q hq
  exact ⟨_, hkey, n, rfl, hn, hlt.trans_le (hx w)⟩

/-- Attest quotes with a key pair drawn in the call. -/
theorem attestNonce_fresh (lo : Nat) (sessionId nonce : Bytes) (nonceLen : Nat) (reply : AttestReply) :
    Triple (fun w => lo ≤ w.tpm.drawn) (attestNonce sessionId nonce nonceLen reply) fun r => QuoteFresh lo r.quote := by
  unfold attestNonce
  refine .bind (le_steady tpmOpen_steady lo) fun tpm => ?_
  cases tpm with
  | none => exact .pure fun _ => QuoteFresh.none
  | some tpm =>
    refine .bind (tpmCreateAk_fresh lo tpm) fun (created, tpm) => .ite (fun _ => ?_) fun hcreated => ?_
    · exact .bind ((le_steady (tpmClose_steady tpm) lo).pre fun _ h => h.1) fun _ => .pure fun _ => QuoteFresh.none
    refine .bind ((tpmQuote_fresh lo tpm nonce nonceLen).pre fun _ h => h.2 (not_not.mp hcreated)) fun (quoted, quote) => ?_
    have hclose := QuoteFresh.steady (tpmClose_steady tpm) lo quote
    refine .ite (fun _ => .bind hclose fun _ => .pure fun _ h => h) fun _ => ?_
    refine .ite (fun _ => .bind hclose fun _ => .pure fun _ h => h) fun _ => .bind hclose fun _ => ?_
    exact .ite (fun _ => .pure fun _ h => h) fun _ => .pure fun _ h => h

theorem rootHeraldAttest_fresh (lo : Nat) (serverUrl sessionId nonceB64 : Option CString) (outInfo : Bool)
    (stack : Bytes) (reply : AttestReply) : Triple (fun w => lo ≤ w.tpm.drawn)
      (rootHeraldAttest serverUrl sessionId nonceB64 outInfo stack reply) fun r => QuoteFresh lo r.quote := by
  unfold rootHeraldAttest
  split
  · exact .ite (fun _ => .pure fun _ => QuoteFresh.none) fun _ => .ite (fun _ => .pure fun _ => QuoteFresh.none)
      fun _ => attestNonce_fresh lo _ _ _ reply
  · exact .pure fun _ => QuoteFresh.none

end Fresh

section Runs

/-- A call of the driver with what its environment answers, or the end of a process. -/
inductive Call where
  | enroll (serverUrl : Option CString) (outInfo : Bool) (reply : EnrollReply) (activateCode : Int) (codes : List Bool)
  | attest (serverUrl sessionId nonceB64 : Option CString) (outInfo : Bool) (stack : Bytes) (reply : AttestReply)
      (codes : List Bool)
  | getStatus (outStatus available : Bool) (deviceIdFile : Option Bytes) (codes : List Bool)
  | restart

inductive Event where
  /-- Enroll returned OK, and had posted the public area of this key. -/
  | enrolled (posted : Option Key)
  /-- Attest reached Esys_Quote with this key. -/
  | quoted (key : Option Key)
  deriving DecidableEq

/-- The TPM with what the calls so far have done. -/
structure Device where
  tpm : Tpm := {}
  trace : List Event := []

def Device.step (d : Device) : Call → Device
  | .enroll serverUrl outInfo reply activateCode codes =>
    let (r, w) := (rootHeraldEnroll serverUrl outInfo reply activateCode).run ⟨d.tpm, codes⟩
    ⟨w.tpm, d.trace ++ (if r.status = .ok then [.enrolled r.posted] else [])⟩
  | .attest serverUrl sessionId nonceB64 outInfo stack reply codes =>
    let (r, w) := (rootHeraldAttest serverUrl sessionId nonceB64 outInfo stack reply).run ⟨d.tpm, codes⟩
    ⟨w.tpm, d.trace ++ (r.quote.toList.map fun q => .quoted q.key)⟩
  | .getStatus outStatus available deviceIdFile codes =>
    { d with tpm := ((rootHeraldGetStatus outStatus available deviceIdFile).run ⟨d.tpm, codes⟩).2.tpm }
  | .restart => { d with tpm := { d.tpm with objects := [] } }

def Device.run (d : Device) (calls : List Call) : Device := calls.foldl step d

/-- A quote behind an enrollment is made with another key than the one enrolled. -/
def Event.OtherKey (e₁ e₂ : Event) : Prop :=
  ∀ posted key, e₁ = .enrolled posted → e₂ = .quoted key → ∃ k k', posted = some k ∧ key = some k' ∧ k' ≠ k

/-- Every enrolled key was drawn, and no quote so far was made with one enrolled before it. -/
structure Device.Inv (d : Device) : Prop where
  drawn : ∀ posted, .enrolled posted ∈ d.trace → ∃ k, posted = some k ∧ Drawn 0 d.tpm.drawn k
  other : d.trace.Pairwise Event.OtherKey

private theorem Drawn.mono {lo hi lo' hi' : Nat} {k : Key} (h : Drawn lo hi k) (hlo : lo' ≤ lo) (hhi : hi ≤ hi') :
    Drawn lo' hi' k := by
  obtain ⟨n, rfl, hn, hlt⟩ := h
  exact ⟨n, rfl, hlo.trans hn, hlt.trans_le hhi⟩

private theorem Drawn.ne {lo hi hi' : Nat} {k k' : Key} (h : Drawn lo hi k) (h' : Drawn hi hi' k') : k' ≠ k := by
  obtain ⟨n, rfl, -, hn⟩ := h
  obtain ⟨m, rfl, hm, -⟩ := h'
  intro heq
  cases heq
  omega

private theorem pairwise_toList (quote : Option QuoteCall) :
    (quote.toList.map fun q => Event.quoted q.key).Pairwise Event.OtherKey := by
  cases quote with
  | none => exact .nil
  | some q => exact List.pairwise_singleton _ _

/-- Later calls only draw more keys. -/
private theorem Device.Inv.drawn_le {d : Device} (hd : d.Inv) {hi : Nat} (hle : d.tpm.drawn ≤ hi)
    {posted : Option Key} (hmem : .enrolled posted ∈ d.trace) : ∃ k, posted = some k ∧ Drawn 0 hi k := by
  obtain ⟨k, hk, hdrawn⟩ := hd.drawn posted hmem
  exact ⟨k, hk, hdrawn.mono (le_refl _) hle⟩

theorem Device.step_inv {d : Device} (hd : d.Inv) (c : Call) : (d.step c).Inv := by
  cases c with
  | restart => exact ⟨hd.drawn, hd.other⟩
  | getStatus outStatus available deviceIdFile codes =>
    have hle := rootHeraldGetStatus_steady outStatus available deviceIdFile ⟨d.tpm, codes⟩
    exact ⟨fun _ => hd.drawn_le hle, hd.other⟩
  | enroll serverUrl outInfo reply activateCode codes =>
    obtain ⟨hle, hfresh⟩ := rootHeraldEnroll_fresh d.tpm.drawn serverUrl outInfo reply activateCode ⟨d.tpm, codes⟩
      (le_refl _)
    have hposted := rootHeraldEnroll_posted serverUrl outInfo reply activateCode ⟨d.tpm, codes⟩ trivial
    refine ⟨fun posted hmem => ?_, List.pairwise_append.mpr ⟨hd.other, ?_, ?_⟩⟩
    · rcases List.mem_append.mp hmem with hold | hnew
      · exact hd.drawn_le hle hold
      · split_ifs at hnew with hok
        · obtain ⟨k, hk⟩ := hposted hok
          obtain rfl := Event.enrolled.inj (List.mem_singleton.mp hnew)
          exact ⟨k, hk, (hfresh k hk).mono (Nat.zero_le _) (le_refl _)⟩
        · cases hnew
    · split_ifs
      · exact List.pairwise_singleton _ _
      · exact .nil
    · intro e _ e' hnew posted key _ hquoted
      split_ifs at hnew
      · cases hquoted.symm.trans (List.mem_singleton.mp hnew)
      · cases hnew
  | attest serverUrl sessionId nonceB64 outInfo stack reply codes =>
    obtain ⟨hle, hfresh⟩ := rootHeraldAttest_fresh d.tpm.drawn serverUrl sessionId nonceB64 outInfo stack reply
      ⟨d.tpm, codes⟩ (le_refl _)
    refine ⟨fun posted hmem => ?_, List.pairwise_append.mpr ⟨hd.other, ?_, ?_⟩⟩
    · rcases List.mem_append.mp hmem with hold | hnew
      · exact hd.drawn_le hle hold
      · obtain ⟨q, -, hq⟩ := List.mem_map.mp hnew
        cases hq
    · exact pairwise_toList _
    · intro e hold e' hnew posted key henrolled hquoted
      subst henrolled
      obtain ⟨k, rfl, hdrawn⟩ := hd.drawn posted hold
      obtain ⟨q, hq, rfl⟩ := List.mem_map.mp hnew
      obtain ⟨k', hk', hdrawn'⟩ := hfresh q (Option.mem_toList.mp hq)
      exact ⟨k, k', rfl, (Event.quoted.inj hquoted) ▸ hk', hdrawn.ne hdrawn'⟩

/-- In every run, from any state of the TPM, each quote behind a successful enrollment is signed by
another key than the one enrolled. -/
theorem attest_never_quotes_enrolled_key (tpm : Tpm) (calls : List Call) :
    ((⟨tpm, []⟩ : Device).run calls).trace.Pairwise Event.OtherKey := by
  have hrun : ∀ d : Device, d.Inv → (d.run calls).Inv := by
    induction calls with
    | nil => exact fun d hd => hd
    | cons c calls ih => exact fun d hd => ih (d.step c) (d.step_inv hd c)
  exact (hrun ⟨tpm, []⟩ ⟨fun _ h => absurd h List.not_mem_nil, .nil⟩).other

/-- A quote behind an enrollment is made with the key enrolled. -/
def Event.SameKey (e₁ e₂ : Event) : Prop :=
  ∀ posted key, e₁ = .enrolled posted → e₂ = .quoted key → key = posted

/-- A string of four characters. -/
def someString : CString := ⟨text "AAAA", by decide +kernel, by decide +kernel⟩

theorem attest_quotes_unenrolled_key :
    ¬ ∀ calls : List Call, (({} : Device).run calls).trace.Pairwise Event.SameKey := by
  intro h
  have hpair := h [.enroll (some someString) true ⟨201, text "id", [], []⟩ 0 (List.replicate 20 true),
    .attest (some someString) (some someString) (some someString) true (List.replicate nonceSize 0)
      ⟨0, [], [], [], []⟩ (List.replicate 20 true)]
  rw [show (({} : Device).run _).trace = [.enrolled (some (.created 0)), .quoted (some (.created 1))] by
    decide +kernel] at hpair
  exact absurd ((List.pairwise_pair.mp hpair) _ _ rfl rfl) (by decide)

end Runs
end RootHerald.Linux
