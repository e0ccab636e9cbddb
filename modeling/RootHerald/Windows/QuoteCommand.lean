import RootHerald.Windows.WireRuns

/-! The command Quote submits, read field by field as the TPM reads a TPM2_Quote. -/
namespace RootHerald.Windows.Wire
open Lib

section Grammar

def TPM2_ALG_NULL : Nat := 0x0010
def TPM2_ALG_RSASSA : Nat := 0x0014
def TPM2_ALG_SHA256 : Nat := 0x000B
def TPM2_RS_PW : Nat := 0x40000009

/-- TPMS_AUTH_COMMAND. -/
structure AuthCommand where
  sessionHandle : Nat
  nonceCaller : Bytes
  sessionAttributes : Nat
  hmac : Bytes
  deriving DecidableEq

/-- TPMT_SIG_SCHEME; the null scheme has no hash. -/
structure SigScheme where
  scheme : Nat
  hash : Option Nat
  deriving DecidableEq

/-- TPM2_Quote. -/
structure QuoteRequest where
  signHandle : Nat
  auth : AuthCommand
  qualifyingData : Bytes
  inScheme : SigScheme
  pcrSelect : List (Nat × Bytes)
  deriving DecidableEq

/-- An authorization area of one session. -/
def unmarshalAuth (area : Bytes) : Option AuthCommand := do
  let (sessionHandle, rest) ← takeBytes 4 area
  let (nonceCaller, rest) ← takeSized 2 rest
  let (sessionAttributes, rest) ← takeBytes 1 rest
  let (hmac, rest) ← takeSized 2 rest
  guard (rest = [])
  return ⟨beNat sessionHandle, nonceCaller, beNat sessionAttributes, hmac⟩

def takeScheme (s : Bytes) : Option (SigScheme × Bytes) := do
  let (scheme, rest) ← takeBytes 2 s
  if beNat scheme = TPM2_ALG_NULL then return (⟨beNat scheme, none⟩, rest)
  let (hash, rest) ← takeBytes 2 rest
  return (⟨beNat scheme, some (beNat hash)⟩, rest)

/-- That many TPMS_PCR_SELECTION. -/
def takeSelections : Nat → Bytes → Option (List (Nat × Bytes) × Bytes)
  | 0, s => some ([], s)
  | n + 1, s => do
    let (hash, rest) ← takeBytes 2 s
    let (select, rest) ← takeSized 1 rest
    let (selections, rest) ← takeSelections n rest
    return ((beNat hash, select) :: selections, rest)

def unmarshalQuote (cmd : Bytes) : Option QuoteRequest := do
  let rest ← takeHeader TPM2_ST_SESSIONS TPM2_CC_Quote cmd
  let (signHandle, rest) ← takeBytes 4 rest
  let (area, rest) ← takeSized 4 rest
  let auth ← unmarshalAuth area
  let (qualifyingData, rest) ← takeSized 2 rest
  let (inScheme, rest) ← takeScheme rest
  let (count, rest) ← takeBytes 4 rest
  let (pcrSelect, rest) ← takeSelections (beNat count) rest
  guard (rest = [])
  return ⟨beNat signHandle, auth, qualifyingData, inScheme, pcrSelect⟩

end Grammar

section Bitmap

/-- Bit i of a pcrSelect. -/
def bitSet (select : Bytes) (i : Nat) : Bool := (select.getD (i / 8) 0).toNat.testBit (i % 8)

private theorem testBit_or_shift (b : UInt8) {k : Nat} (hk : k < 8) (j : Nat) :
    (b ||| 1 <<< UInt8.ofNat k).toNat.testBit j = (b.toNat.testBit j || decide (k = j)) := by
  have hshift : ((1 : UInt8) <<< UInt8.ofNat k).toNat = 2 ^ k := by
    revert k
    decide
  rw [UInt8.toNat_or, hshift, Nat.testBit_or, Nat.testBit_two_pow]

private theorem bitSet_modify {bitmap : Bytes} (hlen : bitmap.length = 3) {idx : Nat} (hidx : idx < 24) (i : Nat) :
    bitSet (bitmap.modify (idx / 8) (· ||| 1 <<< UInt8.ofNat (idx % 8))) i = (bitSet bitmap i || decide (idx = i)) := by
  rw [bitSet, List.getD_eq_getElem?_getD, List.getElem?_modify]
  by_cases hbyte : idx / 8 = i / 8
  · have hlt : i / 8 < bitmap.length := by omega
    have hbit : (idx % 8 = i % 8) = (idx = i) := propext ⟨fun h => by omega, fun h => by rw [h]⟩
    simp only [if_pos hbyte]
    rw [List.getElem?_eq_getElem hlt, Option.map_eq_map, Option.map_some, Option.getD_some,
      testBit_or_shift _ (Nat.mod_lt _ (by decide)), bitSet, List.getD_eq_getElem _ _ hlt]
    simp only [hbit]
  · have hne : idx ≠ i := fun h => hbyte (h ▸ rfl)
    simp only [if_neg hbyte]
    rw [Option.map_eq_map, Option.map_id', decide_eq_false hne, Bool.or_false, bitSet, List.getD_eq_getElem?_getD]

/-- Each index below 24 adds its bit, and the others add none. -/
private theorem bitSet_foldl (pcrIndices : List Nat) (i : Nat) {bitmap : Bytes} (hlen : bitmap.length = 3) :
    bitSet (pcrIndices.foldl (fun bitmap idx =>
      if idx < 24 then bitmap.modify (idx / 8) (· ||| 1 <<< UInt8.ofNat (idx % 8)) else bitmap) bitmap) i =
        (bitSet bitmap i || decide (i < 24 ∧ i ∈ pcrIndices)) := by
  induction pcrIndices generalizing bitmap with
  | nil => simp
  | cons idx pcrIndices ih =>
    rw [List.foldl_cons]
    by_cases hidx : idx < 24
    · rw [if_pos hidx, ih (by rwa [List.length_modify]), bitSet_modify hlen hidx, Bool.or_assoc]
      congr 1
      rw [← Bool.decide_or, decide_eq_decide, List.mem_cons]
      constructor
      · rintro (rfl | ⟨hlt, hmem⟩)
        · exact ⟨hidx, .inl rfl⟩
        · exact ⟨hlt, .inr hmem⟩
      · rintro ⟨hlt, rfl | hmem⟩
        · exact .inl rfl
        · exact .inr ⟨hlt, hmem⟩
    · rw [if_neg hidx, ih hlen]
      congr 1
      rw [decide_eq_decide, List.mem_cons]
      constructor
      · rintro ⟨hlt, hmem⟩
        exact ⟨hlt, .inr hmem⟩
      · rintro ⟨hlt, rfl | hmem⟩
        · exact absurd hlt hidx
        · exact ⟨hlt, hmem⟩

private theorem bitSet_zero (i : Nat) : bitSet [0, 0, 0] i = false := by
  have hbyte : ([0, 0, 0] : Bytes).getD (i / 8) 0 = 0 := by
    match i / 8 with
    | 0 | 1 | 2 => rfl
    | _ + 3 => rfl
  rw [bitSet, hbyte]
  exact Nat.zero_testBit _

/-- Exactly the bits of the PCRs below 24 that are listed. -/
theorem bitSet_pcrBitmap (pcrIndices : List Nat) (i : Nat) :
    bitSet (pcrBitmap pcrIndices) i = decide (i < 24 ∧ i ∈ pcrIndices) := by
  rw [pcrBitmap, bitSet_foldl pcrIndices i rfl, bitSet_zero, Bool.false_or]

end Bitmap

section Command
variable (akHandle : UInt32) (nonce : Bytes) (pcrIndices : List Nat)

def passwordSession : AuthCommand := ⟨TPM2_RS_PW, [], 1, []⟩

/-- The quote of the selected PCRs with that handle and nonce. -/
def quoteRequest (select : Bytes) : QuoteRequest where
  signHandle := akHandle.toNat
  auth := passwordSession
  qualifyingData := nonce
  inScheme := ⟨TPM2_ALG_RSASSA, some TPM2_ALG_SHA256⟩
  pcrSelect := [(TPM2_ALG_SHA256, select)]

/-- Quote submits nothing, or the quote it was asked for. -/
def SubmitsRequest (tpm : TpmCommands) : Prop :=
  ∀ outSignature : Bytes, ∃ r sent, quote tpm akHandle nonce pcrIndices outSignature [] = .ok (r, sent) ∧
    (sent = [] ∨ ∃ cmd select, sent = [cmd] ∧ unmarshalQuote cmd = some (quoteRequest akHandle nonce select) ∧
      ∀ i, bitSet select i = true ↔ i < 24 ∧ i ∈ pcrIndices)

variable {akHandle nonce pcrIndices}

private theorem pcrSelection_length : (pcrSelection pcrIndices).length = 10 := by
  simp only [pcrSelection, List.length_append, beBytes_length, pcrBitmap_length, List.length_singleton]

private theorem takeSelections_pcrSelection :
    ∃ q, takeBytes 4 (pcrSelection pcrIndices) = some q ∧
      takeSelections (beNat q.1) q.2 = some ([(TPM2_ALG_SHA256, pcrBitmap pcrIndices)], []) := by
  have hbitmap : takeSized 1 ([3] ++ pcrBitmap pcrIndices) = some (pcrBitmap pcrIndices, []) := by
    have hsize : ([3] : Bytes) = beBytes 1 (pcrBitmap pcrIndices).length := by
      rw [pcrBitmap_length]
      decide
    have hfront : takeSized 1 (beBytes 1 (pcrBitmap pcrIndices).length ++ (pcrBitmap pcrIndices ++ [])) = _ :=
      takeSized_front (by rw [pcrBitmap_length]; decide)
    rwa [← hsize, List.append_nil] at hfront
  refine ⟨_, takeBytes_front (beBytes_length _ _), ?_⟩
  dsimp only
  rw [show beNat (beBytes 4 1) = 1 by decide, takeSelections, takeBytes_front (beBytes_length _ _)]
  simp only [Option.bind_eq_bind, Option.bind_some]
  rw [hbitmap]
  rfl

private theorem unmarshalQuote_quoteCommand (hlt : nonce.length < 2 ^ 16) :
    unmarshalQuote (quoteCommand akHandle nonce pcrIndices) = some (quoteRequest akHandle nonce (pcrBitmap pcrIndices)) := by
  have hsize : nonce.length < 256 ^ 2 := hlt.trans_le (by norm_num)
  have hauth : unmarshalAuth (writePasswordAuth.drop 4) = some passwordSession := by decide
  have hscheme (rest : Bytes) : takeScheme (beBytes 2 0x0014 ++ (beBytes 2 0x000B ++ rest)) =
      some (⟨TPM2_ALG_RSASSA, some TPM2_ALG_SHA256⟩, rest) := by
    rw [takeScheme, takeBytes_front (beBytes_length _ _), Option.bind_eq_bind, Option.bind_some]
    dsimp only
    rw [if_neg (by decide), takeBytes_front (beBytes_length _ _)]
    rfl
  obtain ⟨q, hcount, hselections⟩ := @takeSelections_pcrSelection pcrIndices
  unfold unmarshalQuote quoteCommand
  rw [takeHeader_commandBytes (by decide) (by decide) ?_]
  · simp only [Option.bind_eq_bind, Option.bind_some, takeBytes_front (beBytes_length 4 akHandle.toNat),
      takeSized_passwordAuth, hauth, writeTpm2b, List.append_assoc, takeSized_front hsize, hscheme, hcount, hselections, guard, if_true,
      beNat_beBytes (k := 4) akHandle.toNat_lt]
    rfl
  · simp only [List.length_append, beBytes_length, passwordAuth_length, writeTpm2b_length, pcrSelection_length]
    omega

private theorem takeSized_two_lt {s : Bytes} {q : Bytes × Bytes} (h : takeSized 2 s = some q) : q.1.length < 2 ^ 16 := by
  unfold takeSized at h
  simp only [Option.bind_eq_bind, Option.bind_eq_some_iff] at h
  obtain ⟨size, hsize, hdata⟩ := h
  have hlt := leNat_lt size.1.reverse
  rw [List.length_reverse, (takeBytes_eq_some.mp hsize).2] at hlt
  calc q.1.length = beNat size.1 := (takeBytes_eq_some.mp hdata).2
    _ < 256 ^ 2 := hlt
    _ = 2 ^ 16 := by norm_num

/-- No quote has qualifying data that are longer than their size tells. -/
private theorem unmarshalQuote_short {cmd : Bytes} {request : QuoteRequest} (h : unmarshalQuote cmd = some request) :
    request.qualifyingData.length < 2 ^ 16 := by
  unfold unmarshalQuote at h
  simp only [Option.bind_eq_bind, Option.bind_eq_some_iff] at h
  obtain ⟨_, -, _, -, _, -, _, -, q, hdata, _, -, _, -, _, -, _, -, hrequest⟩ := h
  cases hrequest
  exact takeSized_two_lt hdata

private theorem length_of_submitsRequest {tbs : Tbs} (h : SubmitsRequest akHandle nonce pcrIndices (some tbs)) :
    nonce.length < 2 ^ 16 := by
  obtain ⟨r, sent, hrun, hsent⟩ := h []
  rw [quote_run] at hrun
  cases hrun
  rcases hsent with hnone | ⟨cmd, select, -, hrequest, -⟩
  · cases hnone
  · exact unmarshalQuote_short hrequest

/-- What is submitted is read as it should be exactly if nothing is, or the nonce fits its 16 bit size. -/
theorem submitsRequest_iff (tpm : TpmCommands) (akHandle : UInt32) (nonce : Bytes) (pcrIndices : List Nat) :
    SubmitsRequest akHandle nonce pcrIndices tpm ↔ (tpm = none ∨ nonce.length < 2 ^ 16) := by
  cases tpm with
  | none => exact iff_of_true (fun _ => ⟨_, _, rfl, .inl rfl⟩) (.inl rfl)
  | some tbs =>
    constructor
    · intro h
      exact .inr (length_of_submitsRequest h)
    · intro h
      have hlt := h.resolve_left (Option.some_ne_none tbs)
      refine fun outSignature => ⟨_, _, quote_run akHandle nonce pcrIndices outSignature, .inr ⟨_, _, rfl,
        unmarshalQuote_quoteCommand hlt, fun i => ?_⟩⟩
      rw [bitSet_pcrBitmap, decide_eq_true_iff]

/-- A nonce of 65536 bytes, whose size is written as 0. -/
theorem submitsRequest_long : ¬ ∀ (tpm : TpmCommands) (akHandle : UInt32) (nonce : Bytes) (pcrIndices : List Nat),
    SubmitsRequest akHandle nonce pcrIndices tpm := by
  intro h
  have hshort := length_of_submitsRequest (h (some (replay fun _ => [])) 0x81010002 (List.replicate (2 ^ 16) 0) [7])
  rw [List.length_replicate] at hshort
  exact lt_irrefl _ hshort

end Command
end RootHerald.Windows.Wire
