import RootHerald.Windows.NvArea

/-! ReadNvCertificate: against any sequence of responses, and against a TPM that answers NV_Read with some
of the bytes asked for. -/
namespace RootHerald.Windows.Wire
open Lib

section Rounds
variable (tbs : Tbs) (nvIndex : UInt32) (dataSize : Nat)

/-- The NV_Read of a round. -/
def roundCommand (s : NvReading) : Bytes :=
  nvReadCommand nvIndex (if kChunk < dataSize - s.readOffset then kChunk else dataSize - s.readOffset) s.readOffset

variable {tbs nvIndex dataSize} {s s' : NvReading}

theorem nvReadRound_done (h : dataSize ≤ s.readOffset) : nvReadRound (some tbs) nvIndex dataSize s =
    .leave (.ok ((!s.outCert.isEmpty, s.outCert), s.sent)) :=
  if_neg (not_lt.mpr h)

theorem nvReadRound_more (h : s.readOffset < dataSize) : nvReadRound (some tbs) nvIndex dataSize s =
    match nvData (tbs s.sent.length (roundCommand nvIndex dataSize s)) with
    | none => .leave (.ok ((false, []), roundCommand nvIndex dataSize s :: s.sent))
    | some chunk => .again ⟨s.outCert ++ chunk, (s.readOffset + chunk.length) % 2 ^ 16,
        roundCommand nvIndex dataSize s :: s.sent⟩ := by
  unfold nvReadRound
  rw [if_pos h]
  simp only [exchange, nvChunk_eq]
  change (match (Except.ok (nvData (tbs s.sent.length (roundCommand nvIndex dataSize s))) : Checked (Option Bytes)) with
    | .error e => _
    | .ok none => _
    | .ok (some chunk) => _) = _
  cases nvData (tbs s.sent.length (roundCommand nvIndex dataSize s)) <;> rfl

/-- A round that goes on got data. -/
theorem nvReadRound_again (h : nvReadRound (some tbs) nvIndex dataSize s = .again s') :
    s.readOffset < dataSize ∧ ∃ chunk, nvData (tbs s.sent.length (roundCommand nvIndex dataSize s)) = some chunk ∧
      s' = ⟨s.outCert ++ chunk, (s.readOffset + chunk.length) % 2 ^ 16, roundCommand nvIndex dataSize s :: s.sent⟩ := by
  by_cases hmore : s.readOffset < dataSize
  swap
  · rw [nvReadRound_done (not_lt.mp hmore)] at h
    cases h
  rw [nvReadRound_more hmore] at h
  split at h
  · cases h
  · rename_i chunk hchunk
    cases h
    exact ⟨hmore, chunk, hchunk, rfl⟩

/-- A loop is left at the end of the data, or behind a response without any. -/
theorem nvReadRound_leave {left : Checked NvResult} (h : nvReadRound (some tbs) nvIndex dataSize s = .leave left) :
    (dataSize ≤ s.readOffset ∧ left = .ok ((!s.outCert.isEmpty, s.outCert), s.sent)) ∨
      (s.readOffset < dataSize ∧ nvData (tbs s.sent.length (roundCommand nvIndex dataSize s)) = none ∧
        left = .ok ((false, []), roundCommand nvIndex dataSize s :: s.sent)) := by
  by_cases hmore : s.readOffset < dataSize
  swap
  · rw [nvReadRound_done (not_lt.mp hmore)] at h
    cases h
    exact .inl ⟨not_lt.mp hmore, rfl⟩
  rw [nvReadRound_more hmore] at h
  split at h
  · rename_i hchunk
    cases h
    exact .inr ⟨hmore, hchunk, rfl⟩
  · cases h

theorem readNvCertificate_eq (tbs : Tbs) (nvIndex : UInt32) (rounds : Nat) :
    readNvCertificate (some tbs) nvIndex rounds [] =
      match nvPublicSize (tbs 0 (nvReadPublicCommand nvIndex)) with
      | none => some (.ok ((false, []), [nvReadPublicCommand nvIndex]))
      | some dataSize =>
        Round.loop (nvReadRound (some tbs) nvIndex dataSize) rounds { sent := [nvReadPublicCommand nvIndex] } := by
  unfold readNvCertificate
  simp only [exchange, nvDataSize_eq, List.length_nil]
  cases nvPublicSize (tbs 0 (nvReadPublicCommand nvIndex)) <;> rfl

end Rounds

section AnyResponses
variable (responses : Nat → Bytes)

/-- The data of the n-th NV_Read, if there are any. -/
def chunkAt (n : Nat) : Option Bytes := nvData (responses (n + 1))

/-- The data of the first n NV_Reads. -/
def chunksBefore (n : Nat) : Bytes := (List.range n).flatMap fun i => (chunkAt responses i).getD []

/-- The uint16_t offset behind the first n NV_Reads. -/
def offsetBehind (n : Nat) : Nat := (chunksBefore responses n).length % 2 ^ 16

/-- The read ends within dataSize NV_Reads, with a certificate of dataSize bytes or without one. -/
def ReadsDataSize (nvIndex : UInt32) : Prop :=
  ∃ rounds r sent, readNvCertificate (some (replay responses)) nvIndex rounds [] = some (.ok (r, sent)) ∧
    (∀ dataSize, nvPublicSize (responses 0) = some dataSize →
      sent.length ≤ 1 + dataSize ∧ (r.1 = true → r.2.length = dataSize)) ∧
    (nvPublicSize (responses 0) = none → sent.length = 1 ∧ r.1 = false) ∧ (r.1 = false → r.2 = [])

variable {responses} {nvIndex : UInt32} {dataSize n : Nat} {s s' : NvReading}

theorem chunksBefore_succ (n : Nat) :
    chunksBefore responses (n + 1) = chunksBefore responses n ++ (chunkAt responses n).getD [] := by
  rw [chunksBefore, List.range_succ, List.flatMap_append, List.flatMap_singleton]
  rfl

/-- Each NV_Read with data brings a byte and more. -/
theorem chunksBefore_grows (h : ∀ i < n, (chunkAt responses i).isSome) {m : Nat} (hm : m ≤ n) :
    (chunksBefore responses m).length + (n - m) ≤ (chunksBefore responses n).length := by
  induction n with
  | zero =>
    obtain rfl := Nat.le_zero.mp hm
    exact le_refl _
  | succ n ih =>
    rcases Nat.eq_or_lt_of_le hm with rfl | hlt
    · exact (Nat.sub_self _).symm ▸ le_refl _
    have ih := ih (fun i hi => h i (hi.trans (Nat.lt_succ_self n))) (Nat.le_of_lt_succ hlt)
    obtain ⟨chunk, hchunk⟩ := Option.isSome_iff_exists.mp (h n (Nat.lt_succ_self n))
    have hpos := (nvData_ne hchunk).1
    rw [chunksBefore_succ, List.length_append, hchunk, Option.getD_some]
    omega

/-- Behind n rounds the certificate so far is what came in them. -/
structure Collected (responses : Nat → Bytes) (dataSize n : Nat) (s : NvReading) : Prop where
  outCert : s.outCert = chunksBefore responses n
  readOffset : s.readOffset = offsetBehind responses n
  sent : s.sent.length = n + 1
  served : ∀ i < n, (chunkAt responses i).isSome
  below : ∀ i < n, offsetBehind responses i < dataSize

theorem nvReadRound_collected (h : Collected responses dataSize n s)
    (hround : nvReadRound (some (replay responses)) nvIndex dataSize s = .again s') :
    Collected responses dataSize (n + 1) s' := by
  obtain ⟨hmore, chunk, hchunk, rfl⟩ := nvReadRound_again hround
  simp only [replay, h.sent] at hchunk
  have hat : chunkAt responses n = some chunk := hchunk
  refine ⟨?_, ?_, congrArg Nat.succ h.sent, Nat.forall_lt_succ_right.mpr ⟨h.served, ?_⟩,
    Nat.forall_lt_succ_right.mpr ⟨h.below, h.readOffset ▸ hmore⟩⟩
  · rw [chunksBefore_succ, hat, h.outCert]
    rfl
  · rw [offsetBehind, chunksBefore_succ, List.length_append, hat, h.readOffset, offsetBehind, Nat.mod_add_mod]
    rfl
  · exact Option.isSome_of_eq_some hat

theorem start_collected (cmd : Bytes) : Collected responses dataSize 0 { sent := [cmd] } :=
  ⟨rfl, rfl, rfl, fun _ h => absurd h (Nat.not_lt_zero _), fun _ h => absurd h (Nat.not_lt_zero _)⟩

/-- The loop comes to the n-th read as long as those before it bring data and do not end it. -/
theorem collected_progress (nvIndex : UInt32) (hserved : ∀ i < n, (chunkAt responses i).isSome)
    (hbelow : ∀ i < n, offsetBehind responses i < dataSize) (cmd : Bytes) :
    ∃ s, Round.after (nvReadRound (some (replay responses)) nvIndex dataSize) n { sent := [cmd] } = some s ∧
      Collected responses dataSize n s := by
  refine Round.after_progress (start_collected cmd) (fun _ _ _ => nvReadRound_collected) fun i hi s h => ?_
  obtain ⟨chunk, hchunk⟩ := Option.isSome_iff_exists.mp (hserved i hi)
  have hat : nvData (replay responses s.sent.length (roundCommand nvIndex dataSize s)) = some chunk := by
    rw [replay, h.sent]
    exact hchunk
  rw [nvReadRound_more (h.readOffset ▸ hbelow i hi), hat]
  exact ⟨_, rfl⟩

/-- The chunks of some first NV_Reads, all with data, are of dataSize bytes together; or a response fails
among the first dataSize, behind offsets below it. -/
def ChunksEnd (responses : Nat → Bytes) (dataSize : Nat) : Prop :=
  ∃ n, (∀ i < n, (chunkAt responses i).isSome) ∧
    ((chunksBefore responses n).length = dataSize ∨
      (n < dataSize ∧ chunkAt responses n = none ∧ ∀ i ≤ n, offsetBehind responses i < dataSize))

private theorem chunksEnd_of_left {r : Bool × Bytes} {sent : Sent} {rounds : Nat} (cmd : Bytes) (hpos : 0 < dataSize)
    (hloop : Round.loop (nvReadRound (some (replay responses)) nvIndex dataSize) rounds { sent := [cmd] } =
      some (.ok (r, sent)))
    (hsent : sent.length ≤ 1 + dataSize) (hsize : r.1 = true → r.2.length = dataSize) : ChunksEnd responses dataSize := by
  obtain ⟨n, -, s, hs, hleave⟩ := Round.loop_eq_some_iff.mp hloop
  have h : Collected responses dataSize n s := Round.after_invariant (start_collected cmd) (fun _ _ _ => nvReadRound_collected) hs
  rcases nvReadRound_leave hleave with ⟨hdone, hleft⟩ | ⟨hmore, hfail, hleft⟩
  · cases hleft
    refine ⟨n, h.served, .inl ?_⟩
    have hne : s.outCert ≠ [] := by
      intro hnil
      have hzero : s.readOffset = 0 := by rw [h.readOffset, offsetBehind, ← h.outCert, hnil]; rfl
      omega
    rw [← h.outCert]
    exact hsize (by simpa using hne)
  · cases hleft
    rw [List.length_cons, h.sent] at hsent
    rw [replay, h.sent] at hfail
    refine ⟨n, h.served, .inr ⟨by omega, hfail, fun i hi => ?_⟩⟩
    rcases Nat.eq_or_lt_of_le hi with rfl | hlt
    · exact h.readOffset ▸ hmore
    · exact h.below i hlt

private theorem left_of_chunksEnd (cmd : Bytes) (hpos : 0 < dataSize) (hlt : dataSize < 2 ^ 16)
    (h : ChunksEnd responses dataSize) : ∃ rounds r sent,
      Round.loop (nvReadRound (some (replay responses)) nvIndex dataSize) rounds { sent := [cmd] } = some (.ok (r, sent)) ∧
        sent.length ≤ 1 + dataSize ∧ (r.1 = true → r.2.length = dataSize) ∧ (r.1 = false → r.2 = []) := by
  rcases h with ⟨n, hserved, hsize | ⟨hn, hfail, hbelow⟩⟩
  · have hgrows := fun m hm => chunksBefore_grows hserved (m := m) hm
    have hbelow : ∀ i < n, offsetBehind responses i < dataSize := by
      intro i hi
      have hi := hgrows i hi.le
      rw [offsetBehind, Nat.mod_eq_of_lt (by omega)]
      omega
    obtain ⟨s, hs, hcollected⟩ := collected_progress nvIndex hserved hbelow cmd
    have hoffset : s.readOffset = dataSize := by
      rw [hcollected.readOffset, offsetBehind, hsize, Nat.mod_eq_of_lt hlt]
    refine ⟨n + 1, (!s.outCert.isEmpty, s.outCert), s.sent,
      Round.loop_eq_some_iff.mpr ⟨n, Nat.lt_succ_self n, s, hs, nvReadRound_done hoffset.ge⟩, ?_, fun _ => ?_, fun h => ?_⟩
    · have hall := hgrows 0 (Nat.zero_le n)
      rw [hcollected.sent]
      omega
    · rw [hcollected.outCert, hsize]
    · simpa using h
  · obtain ⟨s, hs, hcollected⟩ := collected_progress nvIndex hserved (fun i hi => hbelow i hi.le) cmd
    have hmore : s.readOffset < dataSize := hcollected.readOffset ▸ hbelow n (le_refl n)
    have hnone : nvData (replay responses s.sent.length (roundCommand nvIndex dataSize s)) = none := by
      rw [replay, hcollected.sent]
      exact hfail
    have hleave : nvReadRound (some (replay responses)) nvIndex dataSize s =
        .leave (.ok ((false, []), roundCommand nvIndex dataSize s :: s.sent)) := by
      rw [nvReadRound_more hmore, hnone]
    refine ⟨n + 1, (false, []), _, Round.loop_eq_some_iff.mpr ⟨n, Nat.lt_succ_self n, s, hs, hleave⟩, ?_,
      Bool.noConfusion, fun _ => rfl⟩
    rw [List.length_cons, hcollected.sent]
    omega

/-- Whatever comes back, the certificate is read as it should be exactly if the chunks add up to dataSize, or a
response fails in time. -/
theorem readsDataSize_iff (responses : Nat → Bytes) (nvIndex : UInt32) :
    ReadsDataSize responses nvIndex ↔
      ∀ dataSize, nvPublicSize (responses 0) = some dataSize → ChunksEnd responses dataSize := by
  unfold ReadsDataSize
  simp only [readNvCertificate_eq, show replay responses 0 (nvReadPublicCommand nvIndex) = responses 0 from rfl]
  cases hpublic : nvPublicSize (responses 0) with
  | none =>
    refine iff_of_true ⟨0, (false, []), _, rfl, fun _ h => (by cases h), fun _ => ⟨rfl, rfl⟩, fun _ => rfl⟩ fun _ h => ?_
    cases h
  | some dataSize =>
    obtain ⟨hpos, hlt⟩ := nvPublicSize_bounds hpublic
    constructor
    · rintro ⟨rounds, r, sent, hloop, hright, -⟩ _ hsome
      obtain rfl := Option.some.inj hsome
      obtain ⟨hsent, hsize⟩ := hright dataSize rfl
      exact chunksEnd_of_left _ hpos hloop hsent hsize
    · intro h
      obtain ⟨rounds, r, sent, hloop, hsent, hsize, hempty⟩ := left_of_chunksEnd (nvReadPublicCommand nvIndex) hpos hlt (h dataSize rfl)
      exact ⟨rounds, r, sent, hloop, fun _ hd => Option.some.inj hd ▸ ⟨hsent, hsize⟩, fun hd => (by cases hd), hempty⟩

/-- An index of one byte, and two bytes for it. -/
def overfullResponses : Nat → Bytes
  | 0 => response TPM2_ST_NO_SESSIONS (writeTpm2b (List.replicate 13 0 ++ [1]) ++ [0, 0])
  | _ + 1 => nvReadResponse [0x30, 0x00] []

theorem readsDataSize_overfull : ¬ ∀ (responses : Nat → Bytes) (nvIndex : UInt32), ReadsDataSize responses nvIndex := by
  intro h
  obtain ⟨rounds, r, sent, hread, hsome, -⟩ := h overfullResponses 0
  have hpublic : nvPublicSize (overfullResponses 0) = some 1 := by decide
  obtain ⟨-, hsize⟩ := hsome 1 hpublic
  rw [readNvCertificate_eq, show replay overfullResponses 0 (nvReadPublicCommand 0) = overfullResponses 0 from rfl,
    hpublic] at hread
  have htwo : Round.loop (nvReadRound (some (replay overfullResponses)) 0 1) 2 { sent := [nvReadPublicCommand 0] } =
      some (.ok ((true, [0x30, 0x00]), [roundCommand 0 1 { sent := [nvReadPublicCommand 0] }, nvReadPublicCommand 0])) := rfl
  cases Round.loop_unique htwo hread
  exact absurd (hsize rfl) (by decide)

end AnyResponses

section HonestTpm
variable {area : NvArea} {answers : Nat → NvAnswer} {n : Nat} {s s' : NvReading}

/-- Behind n rounds the certificate so far is the front of the content, and no command failed. -/
structure Fetched (area : NvArea) (answers : Nat → NvAnswer) (n : Nat) (s : NvReading) : Prop where
  outCert : s.outCert = area.content.take s.readOffset
  inside : s.readOffset ≤ area.content.length
  grows : n ≤ s.readOffset
  sent : s.sent.length = n + 1
  brings : ∀ i ≤ n, (answers i).Brings i

/-- The data that answer a round. -/
theorem round_answered (h : Fetched area answers n s) (hmore : s.readOffset < area.content.length) :
    nvData (area.tbs answers s.sent.length (roundCommand area.nvIndex area.content.length s)) = none ∧
        ¬ (answers (n + 1)).Brings (n + 1) ∨
      ∃ got, 0 < got ∧ s.readOffset + got ≤ area.content.length ∧ (answers (n + 1)).Brings (n + 1) ∧
        nvData (area.tbs answers s.sent.length (roundCommand area.nvIndex area.content.length s)) =
          some ((area.content.drop s.readOffset).take got) := by
  have hlt := area.content_lt
  rw [h.sent, roundCommand]
  cases hanswer : answers (n + 1) with
  | failing resp fails => exact .inl ⟨nvData_fails (tbs_failing hanswer), id⟩
  | served k authorization =>
    generalize hwant : (if kChunk < area.content.length - s.readOffset then kChunk
      else area.content.length - s.readOffset) = want
    have hrange : 0 < want ∧ s.readOffset + want ≤ area.content.length := by
      rw [← hwant]
      unfold kChunk
      split_ifs <;> omega
    rw [tbs_read hanswer hrange.2, List.take_take]
    by_cases hk : k = 0
    · subst hk
      rw [Nat.zero_min, List.take_zero]
      exact .inl ⟨nvData_empty authorization, lt_irrefl 0⟩
    · have hlength : ((area.content.drop s.readOffset).take (min k want)).length = min k want := by
        rw [List.length_take, List.length_drop]
        omega
      refine .inr ⟨min k want, by omega, by omega, Nat.pos_of_ne_zero hk, nvData_nvReadResponse ?_ (by omega) _⟩
      exact List.ne_nil_of_length_pos (by omega)

private theorem nvReadRound_fetched (h : Fetched area answers n s)
    (hround : nvReadRound (some (area.tbs answers)) area.nvIndex area.content.length s = .again s') :
    Fetched area answers (n + 1) s' := by
  obtain ⟨hmore, chunk, hchunk, rfl⟩ := nvReadRound_again hround
  rcases round_answered h hmore with ⟨hnone, -⟩ | ⟨got, hpos, hinside, hbrings, hdata⟩
  · cases hnone.symm.trans hchunk
  obtain rfl := Option.some.inj (hdata.symm.trans hchunk)
  have hlt := area.content_lt
  have hgrows := h.grows
  have hoffset : (s.readOffset + ((area.content.drop s.readOffset).take got).length) % 2 ^ 16 = s.readOffset + got := by
    rw [List.length_take, List.length_drop, min_eq_left (by omega), Nat.mod_eq_of_lt (by omega)]
  refine ⟨?_, hoffset.le.trans hinside, (by omega : n + 1 ≤ s.readOffset + got).trans hoffset.ge, congrArg Nat.succ h.sent,
    fun i hi => ?_⟩
  · rw [hoffset, List.take_add, h.outCert]
  · rcases Nat.eq_or_lt_of_le hi with rfl | hlt
    · exact hbrings
    · exact h.brings i (Nat.le_of_lt_succ hlt)

/-- However the reads are shortened, the content of the index is read; and nothing where a command fails or
brings nothing. -/
theorem readNvCertificate_content (area : NvArea) (answers : Nat → NvAnswer) :
    ∃ rounds r sent, readNvCertificate (some (area.tbs answers)) area.nvIndex rounds [] = some (.ok (r, sent)) ∧
      ((∀ i < sent.length, (answers i).Brings i) → r = (true, area.content)) ∧
      ((∃ i < sent.length, ¬ (answers i).Brings i) → r = (false, [])) := by
  simp only [readNvCertificate_eq]
  cases hanswer : answers 0 with
  | failing resp fails =>
    rw [nvPublicSize_fails (tbs_failing hanswer)]
    refine ⟨0, _, _, rfl, fun h => ?_, fun _ => rfl⟩
    have hfirst := h 0 (Nat.succ_pos 0)
    rw [hanswer] at hfirst
    exact hfirst.elim
  | served k authorization =>
    have hstart : Fetched area answers 0 { sent := [nvReadPublicCommand area.nvIndex] } := by
      refine ⟨rfl, Nat.zero_le _, le_refl 0, rfl, fun i hi => ?_⟩
      obtain rfl := Nat.le_zero.mp hi
      rw [hanswer]
      trivial
    rw [tbs_public hanswer, area.nvPublicSize_publicResponse]
    dsimp only
    cases hloop : Round.loop (nvReadRound (some (area.tbs answers)) area.nvIndex area.content.length)
        (area.content.length + 1) { sent := [nvReadPublicCommand area.nvIndex] } with
    | none =>
      -- each round brings a byte, and there are not that many
      obtain ⟨s, hs⟩ := Round.after_of_loop_eq_none hloop
      have h := Round.after_invariant hstart (fun _ _ _ => nvReadRound_fetched) hs
      exact absurd (h.grows.trans h.inside) (Nat.not_succ_le_self _)
    | some left =>
      obtain ⟨n, -, s, hs, hleave⟩ := Round.loop_eq_some_iff.mp hloop
      have h := Round.after_invariant hstart (fun _ _ _ => nvReadRound_fetched) hs
      rcases nvReadRound_leave hleave with ⟨hdone, rfl⟩ | ⟨hmore, hfail, rfl⟩
      · have hcontent : s.outCert = area.content := by
          rw [h.outCert, List.take_of_length_le hdone]
        refine ⟨_, _, _, hloop, fun _ => ?_, fun ⟨i, hi, hbrings⟩ => ?_⟩
        · rw [hcontent]
          simp [area.content_ne]
        · rw [h.sent] at hi
          exact absurd (h.brings i (Nat.le_of_lt_succ hi)) hbrings
      · rcases round_answered h hmore with ⟨-, hbrings⟩ | ⟨got, -, -, -, hdata⟩
        · refine ⟨_, _, _, hloop, fun hall => ?_, fun _ => rfl⟩
          refine absurd (hall (n + 1) ?_) hbrings
          rw [List.length_cons, h.sent]
          exact Nat.lt_succ_self _
        · cases hdata.symm.trans hfail

end HonestTpm
end RootHerald.Windows.Wire
