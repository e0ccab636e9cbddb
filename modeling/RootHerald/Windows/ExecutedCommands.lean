import RootHerald.Windows.Enrollment
import RootHerald.Windows.OpenContexts

/-! The calls of the Windows client when the TPM executes every command and every response arrives whole. -/
namespace RootHerald.Windows
open Lib

section Commands

/-- The TPM and what becomes of the next commands. -/
structure At (t : Tpm) (outcomes : List Outcome) (w : World) : Prop where
  tpm : w.tpm = t
  outcomes : w.outcomes = outcomes

variable {context : Context} {cmd : Command} {arriving : Nat} {drawn : Drawn} {outcomes : List Outcome} {t t' : Tpm}
  {params : Bytes}

private theorem nextOutcome_at (outcome : Outcome) : Triple (At t (outcome :: outcomes)) nextOutcome fun next w =>
    next = outcome ∧ At t outcomes w := by
  rintro ⟨_, _, sent⟩ ⟨rfl, rfl⟩
  exact ⟨rfl, rfl, rfl⟩

/-- A command that is executed, with its whole response. -/
theorem sendCommand_answered (hexec : t.execute drawn context cmd = some (params, t')) (hwhole : 10 + params.length ≤ arriving) :
    Triple (At t (.executed arriving drawn :: outcomes)) (sendCommand (some context) cmd) fun resp w =>
      resp = responseHeader cmd.tag (10 + params.length) 0 ++ params ∧ At t' outcomes w := by
  refine .bind (Q := fun resp w => resp = responseHeader cmd.tag (10 + params.length) 0 ++ params ∧ At t' outcomes w)
    (.bind (nextOutcome_at _) fun outcome => .assume (fun _ h => h.1) fun houtcome => ?_)
    fun resp w h => ⟨h.1, h.2.tpm, h.2.outcomes⟩
  subst houtcome
  rintro ⟨_, _, sent⟩ ⟨-, rfl, rfl⟩
  change (submit context cmd arriving drawn _).1 = _ ∧ At _ _ (submit context cmd arriving drawn _).2
  simp only [submit, hexec]
  exact ⟨List.take_of_length_le (by rw [List.length_append, responseHeader_length]; exact hwhole), rfl, rfl⟩

/-- A command the TPM refuses. -/
theorem sendCommand_denied (hexec : t.execute drawn context cmd = none) :
    Triple (At t (.executed arriving drawn :: outcomes)) (sendCommand (some context) cmd) fun resp w =>
      Fails resp ∧ At t outcomes w := by
  refine .bind (Q := fun resp w => Fails resp ∧ At t outcomes w)
    (.bind (nextOutcome_at _) fun outcome => .assume (fun _ h => h.1) fun houtcome => ?_)
    fun resp w h => ⟨h.1, h.2.tpm, h.2.outcomes⟩
  subst houtcome
  rintro ⟨_, _, sent⟩ ⟨-, rfl, rfl⟩
  change Fails (submit context cmd arriving drawn _).1 ∧ At _ _ (submit context cmd arriving drawn _).2
  simp only [submit, hexec]
  exact ⟨refusal_fails 0 arriving, rfl, rfl⟩

end Commands

section Begin

/-- The key is created at the handle, and the response fits the buffer and arrives whole. -/
def Delivers (handle : Handle) (key : Key) (outcome : Outcome) : Prop :=
  ∃ arriving rest, outcome = .executed arriving ⟨handle, key, rest⟩ ∧
    18 + key.publicArea.length + rest.length ≤ min arriving 4096

/-- What the TPM draws in an EnrollBegin. -/
structure BeginDraws where
  ekHandle : Handle
  ek : Key
  akHandle : Handle
  ak : Key

/-- The commands of an EnrollBegin are executed. -/
structure BeginDraws.Executed (draws : BeginDraws) (outcomes : List Outcome) : Prop where
  ekTransient : isTransient draws.ekHandle = true
  akTransient : isTransient draws.akHandle = true
  distinct : draws.ekHandle ≠ draws.akHandle
  outcomes_eq : ∃ arriving drawn ekOutcome akOutcome more,
    outcomes = .executed arriving drawn :: ekOutcome :: akOutcome :: more ∧
      Delivers draws.ekHandle draws.ek ekOutcome ∧ Delivers draws.akHandle draws.ak akOutcome

variable {context : Context} {handle : Handle} {key : Key} {outcome : Outcome} {outcomes : List Outcome} {t : Tpm}

theorem createdPublicArea_whole (tag size handle : Nat) (key : Key) {rest : Bytes}
    (hfits : key.publicArea.length + rest.length < 2 ^ 32) :
    createdPublicArea (responseHeader tag size 0 ++ (beBytes 4 handle ++
      (beBytes 4 (key.publicArea.length + rest.length) ++ (key.publicArea ++ rest)))) = key.publicArea := by
  generalize hresp : responseHeader tag size 0 ++ (beBytes 4 handle ++
      (beBytes 4 (key.publicArea.length + rest.length) ++ (key.publicArea ++ rest))) = resp
  have hpub : key.publicArea.length = 2 + key.content.length := by simp [Key.publicArea]
  have hcontent : 0 < key.content.length := List.length_pos_iff.mpr key.content_ne
  have hlen : resp.length = 18 + key.publicArea.length + rest.length := by
    rw [← hresp]
    simp [responseHeader_length]
    omega
  have hparam : readU32 resp 14 = key.publicArea.length + rest.length := by
    rw [← hresp, ← List.append_assoc]
    exact readU32_append (by simp [responseHeader_length]) hfits
  have hfront : (responseHeader tag size 0 ++ (beBytes 4 handle ++
      beBytes 4 (key.publicArea.length + rest.length))).length = 18 := by
    simp [responseHeader_length]
  have hsplit : resp = (responseHeader tag size 0 ++ (beBytes 4 handle ++
      beBytes 4 (key.publicArea.length + rest.length))) ++ (key.publicArea ++ rest) := by
    rw [← hresp]
    simp only [List.append_assoc]
  have hsize : readU16 resp 18 = key.content.length := by
    rw [hsplit, Key.publicArea, List.append_assoc]
    exact readU16_append hfront key.content_lt
  have hmod : (18 + readU32 resp 14) % 2 ^ 32 ≤ resp.length :=
    (Nat.mod_le _ _).trans (by rw [hparam, hlen, Nat.add_assoc])
  have hwhole : 2 + key.content.length = key.publicArea.length := hpub.symm
  simp only [createdPublicArea]
  rw [if_pos (by omega), if_pos ⟨by omega, hmod⟩, if_pos ⟨by omega, by omega⟩, hsize, hwhole, hsplit, ← hfront,
    List.drop_left, List.take_left]

/-- A creation behind the handle the TPM drew. -/
private theorem createPrimary_answered {hierarchy : Hierarchy} (hfresh : t.Fresh context handle)
    (h : Delivers handle key outcome) :
    Triple (At t (outcome :: outcomes)) (sendCommand (some context) (.createPrimary hierarchy)) fun resp w =>
      14 ≤ resp.length ∧ readU32 resp 6 = 0 ∧ readU32 resp 10 = handle ∧ createdPublicArea resp = key.publicArea ∧
        At (t.create hierarchy context handle key) outcomes w := by
  obtain ⟨arriving, rest, rfl, hwhole⟩ := h
  have hexec : t.execute ⟨handle, key, rest⟩ context (.createPrimary hierarchy) =
      some (beBytes 4 handle ++ (beBytes 4 (key.publicArea.length + rest.length) ++ (key.publicArea ++ rest)),
        t.create hierarchy context handle key) := if_pos hfresh
  refine (sendCommand_answered hexec ?_).post fun resp w ⟨hresp, hat⟩ => ?_
  · simp only [List.length_append, beBytes_length]
    omega
  · subst hresp
    refine ⟨?_, responseCode_whole _ _ _, readU32_append (responseHeader_length _ _ _) (isTransient_range hfresh.1).2,
      createdPublicArea_whole _ _ _ key (by omega), hat⟩
    simp only [List.length_append, beBytes_length, responseHeader_length]
    omega

theorem createEk_answered (hfresh : t.Fresh context handle) (h : Delivers handle key outcome) :
    Triple (At t (outcome :: outcomes)) (createEk (some context)) fun ekHandle w =>
      ekHandle = handle ∧ At (t.create .endorsement context handle key) outcomes w := by
  refine .bind (createPrimary_answered hfresh h) fun resp w ⟨hlen, hcode, hhandle, _, hat⟩ => ?_
  rw [if_neg (by omega), if_neg (not_not.mpr hcode)]
  exact ⟨hhandle, hat⟩

theorem createAndLoadAk_answered (hfresh : t.Fresh context handle) (h : Delivers handle key outcome) :
    Triple (At t (outcome :: outcomes)) (createAndLoadAk (some context)) fun r w =>
      r = (handle, key.publicArea) ∧ At (t.create .owner context handle key) outcomes w := by
  refine .bind (createPrimary_answered hfresh h) fun resp w ⟨hlen, hcode, hhandle, hpub, hat⟩ => ?_
  rw [if_neg (by omega), if_neg (not_not.mpr hcode)]
  exact ⟨Prod.ext hhandle hpub, hat⟩

theorem createAk_answered {draws : BeginDraws} {ekOutcome akOutcome : Outcome} (hek : t.Fresh context draws.ekHandle)
    (hak : t.Fresh context draws.akHandle) (hne : draws.ekHandle ≠ draws.akHandle)
    (hekOutcome : Delivers draws.ekHandle draws.ek ekOutcome) (hakOutcome : Delivers draws.akHandle draws.ak akOutcome) :
    Triple (At t (ekOutcome :: akOutcome :: outcomes)) (TbsKeyProvider.createAk { tpm := some context }) fun r w =>
      r = (true, ⟨some context, draws.ekHandle, draws.akHandle, draws.ak.publicArea⟩) ∧
        w.tpm.log = .created .owner draws.ak :: .created .endorsement draws.ek :: t.log := by
  have hfresh : (t.create .endorsement context draws.ekHandle draws.ek).Fresh context draws.akHandle := by
    refine ⟨hak.1, ?_⟩
    have hkey : (context, draws.akHandle) ≠ (context, draws.ekHandle) := fun heq => hne (Prod.mk.inj heq).2.symm
    rw [Tpm.create, List.lookup_cons, beq_false_of_ne hkey]
    exact hak.2
  refine .bind (Q := fun p w => p = { tpm := some context } ∧ At t (ekOutcome :: akOutcome :: outcomes) w)
    (fun _ h => ⟨rfl, h⟩) fun p => .assume (fun _ h => h.1) fun hp => ?_
  subst hp
  refine .bind ((createEk_answered hek hekOutcome).pre fun _ h => h.2) fun ekHandle => .assume (fun _ h => h.1) fun heq => ?_
  subst heq
  refine .ite (fun hzero => absurd hzero (Nat.ne_of_gt (isTransient_range hek.1).1)) fun _ => ?_
  refine .bind ((createAndLoadAk_answered hfresh hakOutcome).pre fun _ h => h.2) fun loaded =>
    .assume (fun _ h => h.1) fun heq => ?_
  subst heq
  refine .ite (fun hfail => ?_) fun _ => .pure fun w h => ⟨rfl, by rw [h.2.tpm]; rfl⟩
  rcases hfail with hzero | hnil
  · exact absurd hzero (Nat.ne_of_gt (isTransient_range hak.1).1)
  · exact absurd hnil (List.append_ne_nil_of_right_ne_nil _ draws.ak.content_ne)

private theorem destroy_log (inFlight : InFlight) (log : List Event) :
    Triple (fun w => w.tpm.log = log) (destroy inFlight) fun _ w => w.tpm.log = log := by
  cases inFlight with
  | none => exact .pure fun _ h => h
  | some p =>
    intro w h
    exact (close_local (p := p) rfl w (.refl (contextOf p.tpm) w.tpm)).log.trans h

/-- An EnrollBegin that comes to its end, but for malloc. -/
theorem rootHeraldEnrollBegin_answered (sys : System) {env : CallEnv} {inFlight : InFlight} {draws : BeginDraws}
    {data : EkEnrollData} (hnumbered : t.Numbered) (helevated : env.elevated = true)
    (hdata : gatherEkEnrollData sys.sha256 env.sources = some data) (hexecuted : draws.Executed outcomes) :
    Triple (At t outcomes) (rootHeraldEnrollBegin sys true env inFlight) fun r w =>
      if env.allocated then r.status = .ok ∧ r.json = some (jsonBuild (buildEnrollFields data draws.ak.publicArea)) ∧
        w.tpm.log = .created .owner draws.ak :: .created .endorsement draws.ek :: t.log
      else r.status = .internal ∧ r.json = none := by
  obtain ⟨arriving, drawn, ekOutcome, akOutcome, more, rfl, hek, hak⟩ := hexecuted.outcomes_eq
  have hfresh {handle : Handle} (htransient : isTransient handle = true) :
      ({ t with contexts := t.contexts + 1 } : Tpm).Fresh t.contexts handle :=
    ⟨htransient, hnumbered t.contexts (le_refl _) handle⟩
  unfold rootHeraldEnrollBegin
  refine .ite (fun h => by cases h rfl) fun _ => .ite (fun h => absurd helevated h) fun _ => ?_
  rw [hdata]
  refine .bind (Q := fun r w => r = (true, { tpm := some t.contexts }) ∧
    At { t with contexts := t.contexts + 1 } (ekOutcome :: akOutcome :: more) w) ?_ fun (opened, provider) =>
      .assume (fun _ h => h.1) fun heq => ?_
  · rintro ⟨_, _, sent⟩ ⟨rfl, rfl⟩
    exact ⟨rfl, rfl, rfl⟩
  obtain ⟨rfl, rfl⟩ := Prod.mk.inj heq
  refine .ite (fun h => by cases h rfl) fun _ => ?_
  refine .bind ((createAk_answered (hfresh hexecuted.ekTransient) (hfresh hexecuted.akTransient) hexecuted.distinct
    hek hak).pre fun _ h => h.2) fun (created, provider) => .assume (fun _ h => h.1) fun heq => ?_
  obtain ⟨rfl, rfl⟩ := Prod.mk.inj heq
  refine .ite (fun h => by cases h rfl) fun _ => .ite (fun hnil => ?_) fun _ => ?_
  · exact absurd hnil (List.append_ne_nil_of_right_ne_nil _ draws.ak.content_ne)
  · by_cases hallocated : env.allocated = true
    · refine .ite (fun h => absurd hallocated h) fun _ => .bind ((destroy_log inFlight _).pre fun _ h => h.2) fun _ =>
        .pure fun w h => ?_
      rw [if_pos hallocated]
      exact ⟨rfl, rfl, h⟩
    · refine .ite (fun _ => .bind (.any _) fun _ => .bind (.any _) fun _ => .pure fun w h => ?_) fun h => absurd h (not_not.mpr hallocated)
      rw [if_neg hallocated]
      exact ⟨rfl, rfl⟩

end Begin

section Complete

/-- A command is executed, and its whole response arrives, with so many bytes between the header and the
part that is not read. -/
def Whole (size : Nat) (outcome : Outcome) : Prop :=
  ∃ arriving drawn, outcome = .executed arriving drawn ∧ 10 + size + drawn.rest.length ≤ arriving

/-- StartAuthSession is executed. -/
def StartsSession (outcome : Outcome) : Prop :=
  ∃ arriving drawn, outcome = .executed arriving drawn ∧ isSession drawn.handle = true ∧
    14 + drawn.rest.length ≤ arriving

/-- The commands of an EnrollComplete are executed, where the TPM can, with a secret of that length. -/
def CompleteExecuted (secretLength : Nat) (outcomes : List Outcome) : Prop :=
  ∃ start policy activate flush read clear evict more,
    outcomes = start :: policy :: activate :: flush :: read :: clear :: evict :: more ∧ StartsSession start ∧
      Whole 0 policy ∧ Whole (6 + secretLength) activate ∧ Whole 0 flush ∧ Whole 0 read ∧ Whole 0 clear ∧ Whole 0 evict

variable {context : Context} {akHandle ekHandle session : Handle} {ak ek : Key} {cb es : Bytes} {outcomes : List Outcome}
  {t : Tpm} {outcome : Outcome}

theorem succeeded_whole (tag size : Nat) (params : Bytes) : succeeded (responseHeader tag size 0 ++ params) = true := by
  refine (succeeded_iff _).mpr (not_or.mpr ⟨?_, not_not.mpr (responseCode_whole tag size params)⟩)
  rw [List.length_append, responseHeader_length]
  omega

/-- A command whose response has no part that is read. -/
private theorem sendCommand_succeeds {cmd : Command} {u : Tpm}
    (hexec : ∀ drawn, t.execute drawn context cmd = some (drawn.rest, u)) (h : Whole 0 outcome) :
    Triple (At t (outcome :: outcomes)) (sendCommand (some context) cmd) fun resp w =>
      succeeded resp = true ∧ At u outcomes w := by
  obtain ⟨arriving, drawn, rfl, hwhole⟩ := h
  refine (sendCommand_answered (hexec drawn) (by omega)).post fun resp w ⟨hresp, hat⟩ => ?_
  exact ⟨hresp ▸ succeeded_whole _ _ _, hat⟩

private theorem startAuthSession_answered (h : StartsSession outcome) :
    Triple (At t (outcome :: outcomes)) (sendCommand (some context) .startAuthSession) fun resp w =>
      (∃ session ∈ startedSession resp, isSession session = true) ∧ At t outcomes w := by
  obtain ⟨arriving, drawn, rfl, hsession, hwhole⟩ := h
  have hexec : t.execute drawn context .startAuthSession = some (beBytes 4 drawn.handle ++ drawn.rest, t) := if_pos hsession
  refine (sendCommand_answered hexec ?_).post fun resp w ⟨hresp, hat⟩ => ⟨⟨drawn.handle, ?_, hsession⟩, hat⟩
  · rw [List.length_append, beBytes_length]
    omega
  · have hlen : resp.length = 14 + drawn.rest.length := by
      rw [hresp]
      simp [responseHeader_length]
      omega
    have htag : readU16 resp 0 = 0x8001 := by
      rw [hresp, responseHeader, List.append_assoc]
      exact readU16_append (a := []) rfl (by decide)
    have hcode : readU32 resp 6 = 0 := hresp ▸ responseCode_whole _ _ _
    have hhandle : readU32 resp 10 = drawn.handle :=
      hresp ▸ readU32_append (responseHeader_length _ _ _) (isSession_range hsession).2
    unfold startedSession
    simp only [htag, if_neg (show ¬ 0x8001 = 0x8002 by decide)]
    rw [if_neg (by omega), if_neg (not_not.mpr hcode), if_neg (by omega), hhandle]
    rfl

theorem recoveredSecret_whole (tag size : Nat) {secret : Bytes} (hlt : secret.length < 2 ^ 16) (rest : Bytes) :
    recoveredSecret (responseHeader tag size 0 ++ (beBytes 4 (2 + secret.length) ++
      (beBytes 2 secret.length ++ (secret ++ rest)))) = secret := by
  generalize hresp : responseHeader tag size 0 ++ (beBytes 4 (2 + secret.length) ++
      (beBytes 2 secret.length ++ (secret ++ rest))) = resp
  have hlen : resp.length = 16 + secret.length + rest.length := by
    rw [← hresp]
    simp [responseHeader_length]
    omega
  have hcode : readU32 resp 6 = 0 := hresp ▸ responseCode_whole _ _ _
  have hparam : readU32 resp 10 = 2 + secret.length := by
    rw [← hresp]
    exact readU32_append (responseHeader_length _ _ _) (by omega)
  have hsize : readU16 resp 14 = secret.length := by
    rw [← hresp, ← List.append_assoc]
    exact readU16_append (by simp [responseHeader_length]) hlt
  have hfront : ((responseHeader tag size 0 ++ beBytes 4 (2 + secret.length)) ++ beBytes 2 secret.length).length = 16 := by
    simp [responseHeader_length]
  have hsplit : resp = ((responseHeader tag size 0 ++ beBytes 4 (2 + secret.length)) ++ beBytes 2 secret.length) ++
      (secret ++ rest) := by
    rw [← hresp]
    simp only [List.append_assoc]
  unfold recoveredSecret
  rw [if_neg (by omega), if_neg (not_not.mpr hcode), if_neg (by omega)]
  dsimp only
  rw [if_neg (by omega), hsize, hsplit, ← hfront, List.drop_left, List.take_left]

/-- What the client recovers: the secret if the TPM opens the credential, and nothing else. -/
theorem activateInSession_answered (hak : t.keyAt context akHandle = some ak) (hek : t.keyAt context ekHandle = some ek)
    {policy activate : Outcome} {n : Nat} (hsecret : ∀ secret ∈ t.openCredential ak ek cb es, secret.length = n)
    (hn : n < 2 ^ 16) (hpolicy : Whole 0 policy) (hactivate : Whole (6 + n) activate) :
    Triple (At t (policy :: activate :: outcomes)) (activateInSession (some context) akHandle ekHandle session cb es)
      fun secret w => secret = (t.openCredential ak ek cb es).getD [] ∧ ∃ t', At t' outcomes w ∧
        t'.persistent = t.persistent ∧ t'.objects = t.objects := by
  refine .bind (sendCommand_succeeds (fun _ => rfl) hpolicy) fun resp => .assume (fun _ h => h.1) fun hsucceeded => ?_
  have hfails := not_or.mp ((succeeded_iff resp).mp hsucceeded)
  refine .ite (fun h => absurd h hfails.1) fun _ => .ite (fun h => absurd h hfails.2) fun _ => ?_
  obtain ⟨arriving, drawn, rfl, hwhole⟩ := hactivate
  cases hopen : t.openCredential ak ek cb es with
  | none =>
    have hexec : t.execute drawn context (.activateCredential akHandle ekHandle session cb es) = none := by
      simp only [Tpm.execute, hak, hek, hopen]
    refine .bind ((sendCommand_denied hexec).pre fun _ h => h.2) fun resp => .pure fun w h => ?_
    exact ⟨recoveredSecret_fails h.1, t, h.2, rfl, rfl⟩
  | some secret =>
    have hlen := hsecret secret hopen
    have hexec : t.execute drawn context (.activateCredential akHandle ekHandle session cb es) =
        some (beBytes 4 (2 + secret.length) ++ (beBytes 2 secret.length ++ (secret ++ drawn.rest)),
          t.record (.activated ak ek secret)) := by
      simp only [Tpm.execute, hak, hek, hopen]
    refine .bind ((sendCommand_answered hexec ?_).pre fun _ h => h.2) fun resp => .pure fun w h => ?_
    · simp only [List.length_append, beBytes_length]
      omega
    · exact ⟨h.1 ▸ recoveredSecret_whole _ _ (by omega) _, _, h.2, rfl, rfl⟩

theorem activateCredential_answered (hak : t.keyAt context akHandle = some ak)
    (hek : t.keyAt context ekHandle = some ek) {start policy activate flush : Outcome} {n : Nat}
    (hsecret : ∀ secret ∈ t.openCredential ak ek cb es, secret.length = n) (hn : n < 2 ^ 16)
    (hstart : StartsSession start) (hpolicy : Whole 0 policy) (hactivate : Whole (6 + n) activate) (hflush : Whole 0 flush) :
    Triple (At t (start :: policy :: activate :: flush :: outcomes))
      (activateCredential (some context) akHandle ekHandle cb es) fun secret w =>
        secret = (t.openCredential ak ek cb es).getD [] ∧ ∃ t', At t' outcomes w ∧
          t'.persistent = t.persistent ∧ t'.objects = t.objects := by
  refine .bind (startAuthSession_answered hstart) fun resp => .assume (fun _ h => h.1) fun ⟨session, hstarted, hsession⟩ => ?_
  rw [Option.mem_def.mp hstarted]
  refine .bind ((activateInSession_answered hak hek hsecret hn hpolicy hactivate).pre fun _ h => h.2) fun secret =>
    .assume (fun _ h => h.1) fun hrecovered => ?_
  refine Triple.pre (H := fun w => ∃ t', (t'.persistent = t.persistent ∧ t'.objects = t.objects) ∧
    At t' (flush :: outcomes) w) (.witness fun t' => .assume (fun _ h => h.1) fun hsame => ?_)
    fun w ⟨_, t', hat, hsame⟩ => ⟨t', hsame, hat⟩
  refine .bind (Q := fun _ => At t' outcomes) (.ite (fun _ => ?_) fun h => absurd h (not_not.mpr (Nat.ne_of_gt (isSession_range hsession).1)))
    fun _ => .pure fun w hat => ⟨hrecovered, t', hat, hsame⟩
  refine .bind ((sendCommand_succeeds (u := t') (fun drawn => ?_) hflush).pre fun _ h => h.2) fun _ => .pure fun _ h => h.2
  rw [Tpm.execute, if_neg (isSession_not_transient hsession)]

/-- The slot is free afterwards, and a further command is at hand. -/
private theorem clearPersistent_answered {read clear evict : Outcome} (hread : Whole 0 read) (hclear : Whole 0 clear)
    (hevict : Whole 0 evict) :
    Triple (At t (read :: clear :: evict :: outcomes)) (clearPersistent (some context) kTbsAkPersistentHandle)
      fun ready w => ready = true ∧ ∃ t' outcome outcomes', Whole 0 outcome ∧ At t' (outcome :: outcomes') w ∧
        t'.persistent = none ∧ t'.objects = t.objects := by
  have hkeyAt : t.keyAt context kTbsAkPersistentHandle = t.persistent := if_pos rfl
  cases hslot : t.persistent with
  | none =>
    obtain ⟨arriving, drawn, rfl, -⟩ := hread
    have hexec : t.execute drawn context (.readPublic kTbsAkPersistentHandle) = none := by
      simp only [Tpm.execute, hkeyAt, hslot, Option.map_none]
    refine .bind (Q := fun present w => present = false ∧ At t (clear :: evict :: outcomes) w)
      (.bind (sendCommand_denied hexec) fun resp => .pure fun w h => ⟨?_, h.2⟩) fun present =>
        .assume (fun _ h => h.1) fun hpresent => ?_
    · exact Bool.eq_false_iff.mpr fun hsucceeded => (succeeded_iff resp).mp hsucceeded h.1
    · exact .ite (fun h => absurd h (Bool.eq_false_iff.mp hpresent)) fun _ => .pure fun w h =>
        ⟨rfl, t, clear, _, hclear, h.2, hslot, rfl⟩
  | some key =>
    have hexec (drawn : Drawn) : t.execute drawn context (.readPublic kTbsAkPersistentHandle) = some (drawn.rest, t) := by
      simp only [Tpm.execute, hkeyAt, hslot, Option.map_some]
    have hclears (drawn : Drawn) : t.execute drawn context (.evictControl kTbsAkPersistentHandle kTbsAkPersistentHandle) =
        some (drawn.rest, t.clear) := by
      simp only [Tpm.execute, ne_eq, not_true_eq_false, if_false, if_true, hslot, Option.map_some]
    refine .bind (Q := fun present w => present = true ∧ At t (clear :: evict :: outcomes) w)
      (.bind (sendCommand_succeeds hexec hread) fun resp => .pure fun w h => h) fun present =>
        .assume (fun _ h => h.1) fun hpresent => .ite (fun _ => ?_) fun h => absurd hpresent h
    refine .bind ((sendCommand_succeeds hclears hclear).pre fun _ h => h.2) fun resp => .pure fun w h => ?_
    exact ⟨h.1, t.clear, evict, _, hevict, h.2, rfl, rfl⟩

theorem evictControl_answered {handle : Handle} {key : Key} (hhandle : handle ≠ kTbsAkPersistentHandle)
    (hkey : t.objects.lookup (context, handle) = some key) {read clear evict : Outcome} (hread : Whole 0 read)
    (hclear : Whole 0 clear) (hevict : Whole 0 evict) :
    Triple (At t (read :: clear :: evict :: outcomes)) (evictControl (some context) handle kTbsAkPersistentHandle)
      fun evicted _ => evicted = true := by
  refine .bind (clearPersistent_answered hread hclear hevict) fun ready => .assume (fun _ h => h.1) fun hready =>
    .ite (fun _ => ?_) fun h => absurd hready h
  refine Triple.pre (H := fun w => ∃ e : Tpm × Outcome × List Outcome, (Whole 0 e.2.1 ∧ e.1.persistent = none ∧
    e.1.objects = t.objects) ∧ At e.1 (e.2.1 :: e.2.2) w) (.witness fun (t', outcome, outcomes') =>
      .assume (fun _ h => h.1) fun ⟨hwhole, hslot, hobjects⟩ => ?_) fun w ⟨_, t', outcome, outcomes', hwhole, hat, hfree⟩ =>
        ⟨(t', outcome, outcomes'), ⟨hwhole, hfree⟩, hat⟩
  have hexec (drawn : Drawn) : t'.execute drawn context (.evictControl handle kTbsAkPersistentHandle) =
      some (drawn.rest, t'.store key) := by
    have hslot' : t'.persistent = none := hslot
    have hkeyAt : t'.keyAt context handle = some key := by
      rw [Tpm.keyAt, if_neg hhandle, show t'.objects = t.objects from hobjects, hkey]
    simp only [Tpm.execute, ne_eq, not_true_eq_false, if_false, if_neg hhandle, hslot', hkeyAt]
  exact .bind ((sendCommand_succeeds hexec hwhole).pre fun _ h => h.2) fun _ => .pure fun _ h => h.1

variable {p : TbsKeyProvider}

private theorem persistAk_answered (hholds : Holds p context ek ak t) {read clear evict : Outcome} (hread : Whole 0 read)
    (hclear : Whole 0 clear) (hevict : Whole 0 evict) :
    Triple (At t (read :: clear :: evict :: outcomes)) p.persistAk fun r _ => r.1 = true := by
  have hhandle : p.akHandle ≠ kTbsAkPersistentHandle := fun heq => absurd (heq ▸ hholds.akTransient) (by decide)
  refine .ite (fun hzero => absurd hzero (Nat.ne_of_gt (isTransient_range hholds.akTransient).1)) fun _ => ?_
  rw [hholds.tpm]
  refine .bind (evictControl_answered hhandle hholds.akAt hread hclear hevict) fun evicted => .assume (fun _ h => h)
    fun hevicted => .ite (fun _ => ?_) fun h => absurd hevicted h
  exact .bind (.any _) fun _ => .pure fun _ _ => rfl

/-- Status and text of an EnrollComplete behind its checks, by what the TPM opens. -/
def completed (deviceId : Bytes) (allocated : Bool) : Option Bytes → EnrollStep
  | none => { status := .attestationFailed, inFlight := none }
  | some secret =>
    if allocated then { status := .ok, json := some (jsonBuild (activateFields deviceId secret)), inFlight := none }
    else { status := .internal, inFlight := none }

/-- An EnrollComplete that comes to its end, but for malloc. -/
theorem completeEnrollment_answered (sys : System) (hholds : Holds p context ek ak t) {deviceId credBlob encSecret : Bytes}
    (allocated : Bool) {n : Nat} (hexecuted : CompleteExecuted n outcomes) (hn : 0 < n ∧ n < 2 ^ 16)
    (hsecret : ∀ secret ∈ t.openCredential ak ek (sys.base64Decode credBlob) (sys.base64Decode encSecret),
      secret.length = n) :
    Triple (At t outcomes) (completeEnrollment sys deviceId credBlob encSecret allocated p) fun r _ =>
      r = completed deviceId allocated
        (t.openCredential ak ek (sys.base64Decode credBlob) (sys.base64Decode encSecret)) := by
  obtain ⟨start, policy, activate, flush, read, clear, evict, more, rfl, hstart, hpolicy, hactivate, hflush, hread, hclear,
    hevict⟩ := hexecuted
  have hcontext : contextOf p.tpm = context := by rw [hholds.tpm]; rfl
  have hak : t.keyAt context p.akHandle = some ak := hcontext ▸ hholds.keyAt_ak
  have hek : t.keyAt context p.ekHandle = some ek := hcontext ▸ hholds.keyAt_ek
  refine .bind (Q := fun secret w =>
    secret = (t.openCredential ak ek (sys.base64Decode credBlob) (sys.base64Decode encSecret)).getD [] ∧
      ∃ t', At t' (read :: clear :: evict :: more) w ∧ t'.persistent = t.persistent ∧ t'.objects = t.objects) ?_
    fun secret => .assume (fun _ h => h.1) fun hrecovered => ?_
  · refine .ite (fun hzero => ?_) fun _ => ?_
    · rcases hzero with hzero | hzero
      · exact absurd hzero (Nat.ne_of_gt (isTransient_range hholds.akTransient).1)
      · exact absurd hzero (Nat.ne_of_gt (isTransient_range hholds.ekTransient).1)
    · rw [hholds.tpm]
      exact activateCredential_answered hak hek hsecret hn.2 hstart hpolicy hactivate hflush
  cases hopen : t.openCredential ak ek (sys.base64Decode credBlob) (sys.base64Decode encSecret) with
  | none =>
    rw [hopen] at hrecovered
    refine .ite (fun _ => ?_) fun hne => absurd hrecovered hne
    exact .bind (.any _) fun _ => .bind (.any _) fun _ => .pure fun _ _ => rfl
  | some opened =>
    obtain rfl : secret = opened := by rw [hrecovered, hopen, Option.getD_some]
    have hlen := hsecret secret hopen
    refine .ite (fun hnil => ?_) fun _ => ?_
    · rw [hnil, List.length_nil] at hlen
      omega
    refine Triple.pre (H := fun w => ∃ t', t'.objects = t.objects ∧ At t' (read :: clear :: evict :: more) w)
      (.witness fun t' => .assume (fun _ h => h.1) fun hobjects => ?_) fun w ⟨_, t', hat, _, hobjects⟩ => ⟨t', hobjects, hat⟩
    have hholds' : Holds p context ek ak t' := { hholds with
      ekAt := hobjects ▸ hholds.ekAt, akAt := hobjects ▸ hholds.akAt }
    refine .bind ((persistAk_answered hholds' hread hclear hevict).pre fun _ h => h.2) fun (persisted, provider) =>
      .assume (fun _ h => h) fun hpersisted => .ite (fun h => absurd hpersisted h) fun _ => .bind (.any _) fun _ => ?_
    refine .ite (fun h => .pure fun _ _ => ?_) fun h => .pure fun _ _ => ?_
    · rw [completed, if_neg h]
    · rw [completed, if_pos (not_not.mp h)]

end Complete
end RootHerald.Windows
