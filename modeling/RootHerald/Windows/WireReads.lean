import RootHerald.Windows.WireCommands

/-! What the parsers of the responses read. Those of PCR_Read, Quote, CreatePrimary of the EK,
StartAuthSession, PolicySecret and the NV commands stay inside any response. -/
namespace RootHerald.Windows.Wire
open Lib

section Reads
variable {p resp : Bytes} {i n : Nat}

theorem readU16_ok (h : i + 2 ≤ p.length) : readU16 p i = .ok (Windows.readU16 p i) := if_pos h

theorem readU32_ok (h : i + 4 ≤ p.length) : readU32 p i = .ok (Windows.readU32 p i) := if_pos h

theorem readU16_error (h : p.length < i + 2) : readU16 p i = .error .outOfBounds := if_neg (not_le.mpr h)

theorem readU32_error (h : p.length < i + 4) : readU32 p i = .error .outOfBounds := if_neg (not_le.mpr h)

theorem readU8_drop (h : i < p.length) : readU8 (p.drop i) = .ok (p.getD i 0) := by
  rw [List.drop_eq_getElem_cons h, readU8, List.getD_eq_getElem _ _ h]

theorem readSlice_ok (h : i + n ≤ p.length) : readSlice p i n = .ok ((p.drop i).take n) :=
  readRange_ok (by rw [List.length_drop]; omega)

theorem readU16_lt (p : Bytes) (i : Nat) : Windows.readU16 p i < 2 ^ 16 := by
  calc Windows.readU16 p i < 256 ^ 2 := leNat_lt [p.getD (i + 1) 0, p.getD i 0]
    _ = 2 ^ 16 := by norm_num

/-- The response code is looked at in a response of at least n bytes. -/
private theorem code_checked {α : Type} (hn : 10 ≤ n) (a : α) (rest : Checked α) :
    (if resp.length < n then pure a else do
      if (← readU32 resp 6) ≠ 0 then return a
      rest) = if resp.length < n ∨ Windows.readU32 resp 6 ≠ 0 then .ok a else rest := by
  by_cases hlen : resp.length < n
  · rw [if_pos hlen, if_pos (.inl hlen)]
    rfl
  · rw [if_neg hlen, readU32_ok (by omega), ok_bind]
    by_cases hcode : Windows.readU32 resp 6 = 0
    · rw [if_neg (not_not.mpr hcode), if_neg (not_or.mpr ⟨hlen, not_not.mpr hcode⟩)]
    · rw [if_pos hcode, if_pos (.inr hcode)]
      rfl

end Reads

section Total
variable (resp : Bytes)

private theorem skipSelections_eq (n offset : Nat) :
    skipSelections resp n offset = .ok (Windows.skipSelections resp n offset) := by
  induction n generalizing offset with
  | zero => rfl
  | succ n ih =>
    rw [skipSelections, Windows.skipSelections]
    apply ite_ok (fun _ => rfl)
    intro h
    rw [readU8_drop (not_le.mp h), ok_bind, ih]

theorem pcrReadValue_eq : pcrReadValue resp = .ok (Windows.pcrReadValue resp) := by
  unfold pcrReadValue Windows.pcrReadValue
  apply ite_ok (fun _ => rfl)
  intro hlen
  rw [readU32_ok (by omega), ok_bind]
  apply ite_ok (fun _ => rfl)
  intro _
  apply ite_ok (fun _ => rfl)
  intro hlisted
  rw [readU32_ok (by omega), ok_bind, skipSelections_eq, ok_bind]
  cases Windows.skipSelections resp (Windows.readU32 resp 14) 18 with
  | none => rfl
  | some offset =>
    apply ite_ok (fun _ => rfl)
    intro hcount
    rw [readU32_ok (by omega), ok_bind]
    refine ite_ok (fun hdigest => ?_) fun _ => rfl
    rw [readU16_ok (by omega), ok_bind]
    exact ite_ok (fun hfits => readSlice_ok hfits) fun _ => rfl

/-- The quoted structure, and what stands behind it if anything does. -/
theorem quoteOutputs_eq (outSignature : Bytes) : quoteOutputs outSignature resp =
    .ok ((quoteResult resp).map fun q => (q.1, if q.2 = [] then outSignature else q.2)) := by
  unfold quoteOutputs quoteResult
  simp only [apply_ite (Option.map _), Option.map_none, Option.map_some]
  apply ite_ok (fun _ => rfl)
  intro hlen
  rw [readU32_ok (by omega), ok_bind]
  apply ite_ok (fun _ => rfl)
  intro _
  apply ite_ok (fun _ => rfl)
  intro hparam
  rw [readU32_ok (by omega), ok_bind]
  apply ite_ok (fun _ => rfl)
  intro hsize
  rw [readU16_ok (by omega), ok_bind]
  apply ite_ok (fun _ => rfl)
  intro hattest
  rw [readSlice_ok (not_lt.mp hattest), ok_bind]
  by_cases hbehind : 16 + Windows.readU16 resp 14 < resp.length
  · have hne : resp.drop (16 + Windows.readU16 resp 14) ≠ [] := List.ne_nil_of_length_pos (by rw [List.length_drop]; omega)
    rw [if_pos hbehind, readSlice_ok (by omega), ok_bind, if_neg hne,
      List.take_of_length_le (l := resp.drop (16 + Windows.readU16 resp 14)) (by rw [List.length_drop])]
    rfl
  · rw [if_neg hbehind, if_pos (List.drop_eq_nil_of_le (not_lt.mp hbehind))]
    rfl

theorem createdEk_ok : ∃ handle, createdEk resp = .ok handle := by
  unfold createdEk
  rw [code_checked (by decide)]
  split_ifs with h
  · exact ⟨_, rfl⟩
  · rw [not_or] at h
    exact ⟨_, readU32_ok (by omega)⟩

theorem startedSession_eq : startedSession resp = .ok (Windows.startedSession resp) := by
  unfold startedSession Windows.startedSession
  apply ite_ok (fun _ => rfl)
  intro hlen
  rw [readU32_ok (by omega), ok_bind]
  apply ite_ok (fun _ => rfl)
  intro _
  rw [readU16_ok (by omega), ok_bind, show TPM2_ST_SESSIONS = 0x8002 from rfl]
  dsimp only
  generalize (if Windows.readU16 resp 0 = 0x8002 then 14 else 10) = handleOffset
  apply ite_ok (fun _ => rfl)
  intro hhandle
  rw [readU32_ok (by omega)]
  rfl

theorem succeeded_eq : succeeded resp = .ok (Windows.succeeded resp) := by
  unfold succeeded Windows.succeeded
  apply ite_ok (fun _ => rfl)
  intro hlen
  rw [readU32_ok (by omega)]
  rfl

end Total

section Cut
variable {resp : Bytes}

/-- A response with one of the two bytes of the TPM2B_PUBLIC size, whose parameterSize is 1, or so large
that its sum with the offset wraps. -/
def CutInPublic (resp : Bytes) : Prop :=
  resp.length = 19 ∧ Windows.readU32 resp 6 = 0 ∧ 0 < Windows.readU32 resp 14 ∧
    (18 + Windows.readU32 resp 14) % 2 ^ 32 ≤ 19

/-- Whatever is read of a response that is not cut is what the unchecked parser reads. -/
theorem createdAk_ok_iff (outPublicKey : Option Bytes) :
    (∃ r, createdAk outPublicKey resp = .ok r) ↔ (outPublicKey.isSome → ¬ CutInPublic resp) := by
  unfold createdAk CutInPublic
  rw [code_checked (by decide)]
  by_cases hfails : resp.length < 14 ∨ Windows.readU32 resp 6 ≠ 0
  · rw [if_pos hfails]
    refine iff_of_true ⟨_, rfl⟩ fun _ ⟨hlen, hcode, _⟩ => ?_
    rcases hfails with h | h
    · omega
    · exact h hcode
  rw [if_neg hfails]
  rw [not_or, not_not, not_lt] at hfails
  obtain ⟨hlen, hcode⟩ := hfails
  rw [readU32_ok (by omega), ok_bind]
  by_cases hwanted : outPublicKey.isSome ∧ 18 < resp.length
  swap
  · rw [if_neg hwanted]
    exact iff_of_true ⟨_, rfl⟩ fun hsome ⟨hcut, _⟩ => hwanted ⟨hsome, by omega⟩
  rw [if_pos hwanted, readU32_ok (by omega), ok_bind]
  by_cases hparam : 0 < Windows.readU32 resp 14 ∧ (18 + Windows.readU32 resp 14) % 2 ^ 32 ≤ resp.length
  swap
  · rw [if_neg hparam]
    refine iff_of_true ⟨_, rfl⟩ fun _ ⟨hcut, _, hpos, hwrap⟩ => hparam ⟨hpos, ?_⟩
    rw [hcut]
    exact hwrap
  rw [if_pos hparam]
  by_cases hcut : resp.length = 19
  · rw [readU16_error (by omega), error_bind]
    refine iff_of_false (fun ⟨_, h⟩ => by cases h) fun h => h hwanted.1 ⟨hcut, hcode, hparam.1, ?_⟩
    rw [← hcut]
    exact hparam.2
  · rw [readU16_ok (by omega), ok_bind]
    refine iff_of_true ?_ fun _ h => hcut h.1
    by_cases hpub : 0 < Windows.readU16 resp 18 ∧ 20 + Windows.readU16 resp 18 ≤ resp.length
    · rw [if_pos hpub, readSlice_ok (by omega), ok_bind]
      exact ⟨_, rfl⟩
    · rw [if_neg hpub]
      exact ⟨_, rfl⟩

/-- A response of code success that ends in its parameterSize, or in the size of a secret it announces. -/
def CutBeforeSecret (resp : Bytes) : Prop :=
  ¬ Fails resp ∧ (resp.length < 14 ∨ (resp.length < 16 ∧ 2 ≤ Windows.readU32 resp 10))

theorem recoveredSecret_cut (h : CutBeforeSecret resp) : recoveredSecret resp = .error .outOfBounds := by
  obtain ⟨hresp, hcut⟩ := h
  unfold recoveredSecret
  rw [code_checked (le_refl 10), if_neg (not_or.mpr (not_or.mp hresp))]
  by_cases hparam : resp.length < 14
  · rw [readU32_error (by omega), error_bind]
  · obtain ⟨hsize, htwo⟩ := hcut.resolve_left hparam
    rw [readU32_ok (by omega), ok_bind, if_neg (not_lt.mpr htwo), readU16_error (by omega), error_bind]

theorem recoveredSecret_eq (h : ¬ CutBeforeSecret resp) : recoveredSecret resp = .ok (Windows.recoveredSecret resp) := by
  unfold recoveredSecret Windows.recoveredSecret
  apply ite_ok (fun _ => rfl)
  intro hlen
  rw [readU32_ok (by omega), ok_bind]
  apply ite_ok (fun _ => rfl)
  intro hcode
  have hresp : ¬ Fails resp := not_or.mpr ⟨hlen, hcode⟩
  have hparam : 14 ≤ resp.length := not_lt.mp fun hlt => h ⟨hresp, .inl hlt⟩
  rw [readU32_ok hparam, ok_bind]
  apply ite_ok (fun _ => rfl)
  intro htwo
  have hsize : 16 ≤ resp.length := not_lt.mp fun hlt => h ⟨hresp, .inr ⟨hlt, not_lt.mp htwo⟩⟩
  rw [readU16_ok hsize, ok_bind]
  exact ite_ok (fun _ => rfl) fun hsecret => readSlice_ok (not_lt.mp hsecret)

end Cut

section NvResponses
variable (resp : Bytes)

/-- The dataSize of a response to NV_ReadPublic that has one other than 0. -/
def nvPublicSize : Option Nat :=
  if resp.length < 10 ∨ Windows.readU32 resp 6 ≠ 0 ∨ resp.length < 12 + Windows.readU16 resp 10 ∨
      resp.length < 26 + Windows.readU16 resp 22 ∨ Windows.readU16 resp (24 + Windows.readU16 resp 22) = 0 then none
  else some (Windows.readU16 resp (24 + Windows.readU16 resp 22))

/-- The data of a response to NV_Read that has some. -/
def nvData : Option Bytes :=
  if resp.length < 10 ∨ Windows.readU32 resp 6 ≠ 0 ∨ Windows.readU16 resp 14 = 0 ∨
      resp.length < 16 + Windows.readU16 resp 14 then none
  else some ((resp.drop 16).take (Windows.readU16 resp 14))

theorem nvDataSize_eq : nvDataSize resp = .ok (nvPublicSize resp) := by
  unfold nvDataSize nvPublicSize
  rw [code_checked (le_refl 10)]
  by_cases hfails : resp.length < 10 ∨ Windows.readU32 resp 6 ≠ 0
  · rw [if_pos hfails, if_pos (by tauto)]
  rw [if_neg hfails]
  rw [not_or, not_not, not_lt] at hfails
  obtain ⟨hlen, hcode⟩ := hfails
  by_cases hsize : resp.length < 12
  · rw [if_pos hsize, if_pos (.inr (.inr (.inl (by omega))))]
    rfl
  rw [if_neg hsize, readU16_ok (by omega), ok_bind]
  by_cases hpublic : resp.length < 12 + Windows.readU16 resp 10
  · rw [if_pos hpublic, if_pos (.inr (.inr (.inl hpublic)))]
    rfl
  rw [if_neg hpublic]
  by_cases hpolicy : resp.length < 12 + 4 + 2 + 4 + 2
  · rw [if_pos hpolicy, if_pos (.inr (.inr (.inr (.inl (by omega)))))]
    rfl
  rw [if_neg hpolicy, readU16_ok (by omega), ok_bind]
  by_cases hdata : resp.length < 24 + Windows.readU16 resp 22 + 2
  · rw [if_pos hdata, if_pos (.inr (.inr (.inr (.inl (by omega)))))]
    rfl
  rw [if_neg hdata, readU16_ok (by omega), ok_bind]
  by_cases hzero : Windows.readU16 resp (24 + Windows.readU16 resp 22) = 0
  · rw [if_pos hzero, if_pos (.inr (.inr (.inr (.inr hzero))))]
    rfl
  · rw [if_neg hzero, if_neg]
    · rfl
    · rintro (h | h | h | h | h)
      · omega
      · exact h hcode
      · omega
      · omega
      · exact hzero h

theorem nvChunk_eq : nvChunk resp = .ok (nvData resp) := by
  unfold nvChunk nvData
  rw [code_checked (le_refl 10)]
  by_cases hfails : resp.length < 10 ∨ Windows.readU32 resp 6 ≠ 0
  · rw [if_pos hfails, if_pos (by tauto)]
  rw [if_neg hfails]
  rw [not_or, not_not, not_lt] at hfails
  obtain ⟨hlen, hcode⟩ := hfails
  by_cases hsize : resp.length < 16
  · rw [if_pos hsize, if_pos (.inr (.inr (.inr (by omega))))]
    rfl
  rw [if_neg hsize, readU16_ok (by omega), ok_bind]
  by_cases hgot : Windows.readU16 resp 14 = 0 ∨ resp.length < 16 + Windows.readU16 resp 14
  · rw [if_pos hgot, if_pos (.inr (.inr hgot))]
    rfl
  · rw [if_neg hgot, readSlice_ok (not_lt.mp (not_or.mp hgot).2), ok_bind, if_neg]
    · rfl
    · rintro (h | h | h)
      · omega
      · exact h hcode
      · exact hgot h

variable {resp}

theorem nvPublicSize_bounds {dataSize : Nat} (h : nvPublicSize resp = some dataSize) : 0 < dataSize ∧ dataSize < 2 ^ 16 := by
  obtain ⟨hne, h⟩ := Option.ite_none_left_eq_some.mp h
  cases h
  rw [not_or, not_or, not_or, not_or] at hne
  exact ⟨Nat.pos_of_ne_zero hne.2.2.2.2, readU16_lt _ _⟩

theorem nvData_ne {data : Bytes} (h : nvData resp = some data) : 0 < data.length ∧ data.length < 2 ^ 16 := by
  obtain ⟨hne, h⟩ := Option.ite_none_left_eq_some.mp h
  cases h
  have hlt := readU16_lt resp 14
  rw [List.length_take, List.length_drop]
  omega

theorem nvData_fails (h : Fails resp) : nvData resp = none :=
  if_pos (h.imp id .inl)

theorem nvPublicSize_fails (h : Fails resp) : nvPublicSize resp = none :=
  if_pos (h.imp id .inl)

end NvResponses

section Marshalling

theorem takeBytes_front {n : Nat} {q rest : Bytes} (h : q.length = n) : takeBytes n (q ++ rest) = some (q, rest) :=
  takeBytes_eq_some.mpr ⟨rfl, h⟩

theorem takeSized_front {n : Nat} {data rest : Bytes} (h : data.length < 256 ^ n) :
    takeSized n (beBytes n data.length ++ (data ++ rest)) = some (data, rest) := by
  rw [takeSized, takeBytes_front (beBytes_length _ _)]
  simp only [Option.bind_eq_bind, Option.bind_some, beNat_beBytes h]
  exact takeBytes_front rfl

theorem writeTpm2b_length (data : Bytes) : (writeTpm2b data).length = 2 + data.length := by
  rw [writeTpm2b, List.length_append, beBytes_length]

/-- What stands behind the header of a command with this tag and code, and its own length. -/
def takeHeader (tag commandCode : Nat) (cmd : Bytes) : Option Bytes := do
  let (cmdTag, rest) ← takeBytes 2 cmd
  let (commandSize, rest) ← takeBytes 4 rest
  let (code, rest) ← takeBytes 4 rest
  guard (beNat cmdTag = tag ∧ beNat commandSize = cmd.length ∧ beNat code = commandCode)
  return rest

theorem commandBytes_length (tag commandCode : Nat) (params : Bytes) :
    (commandBytes tag commandCode params).length = 10 + params.length := by
  simp only [commandBytes, List.length_append, beBytes_length]

theorem takeHeader_commandBytes {tag commandCode : Nat} {params : Bytes} (htag : tag < 2 ^ 16)
    (hcode : commandCode < 2 ^ 32) (hsize : 10 + params.length < 2 ^ 32) :
    takeHeader tag commandCode (commandBytes tag commandCode params) = some params := by
  unfold takeHeader
  rw [commandBytes_length, commandBytes, List.append_assoc, List.append_assoc, takeBytes_front (beBytes_length _ _)]
  simp only [Option.bind_eq_bind, Option.bind_some]
  rw [takeBytes_front (beBytes_length _ _), Option.bind_some, takeBytes_front (beBytes_length _ _), Option.bind_some,
    beNat_beBytes (k := 2) htag, beNat_beBytes (k := 4) hsize, beNat_beBytes (k := 4) hcode, guard,
    if_pos ⟨rfl, rfl, rfl⟩]
  rfl

theorem takeSized_passwordAuth (rest : Bytes) :
    takeSized 4 (writePasswordAuth ++ rest) = some (writePasswordAuth.drop 4, rest) := by
  have hsplit : writePasswordAuth = beBytes 4 (writePasswordAuth.drop 4).length ++ writePasswordAuth.drop 4 := by
    decide
  have hlt : (writePasswordAuth.drop 4).length < 256 ^ 4 := by decide
  calc takeSized 4 (writePasswordAuth ++ rest)
      = takeSized 4 (beBytes 4 (writePasswordAuth.drop 4).length ++ (writePasswordAuth.drop 4 ++ rest)) := by
        rw [← List.append_assoc, ← hsplit]
    _ = some (writePasswordAuth.drop 4, rest) := takeSized_front hlt

theorem passwordAuth_length : writePasswordAuth.length = 13 := by decide

end Marshalling
end RootHerald.Windows.Wire
