import RootHerald.Lib.Cells
import RootHerald.Windows.CommandEffects
import RootHerald.Windows.PrimaryKeys

/-! TPM2_PCR_Read and TPM2_Quote: the SHA-256 bank, the responses of the TPM, and what the client reads
from them. -/
namespace RootHerald.Windows
open Lib

section Bank

/-- A SHA-256 digest. -/
structure Digest where
  bytes : Bytes
  length_eq : bytes.length = 32
  deriving DecidableEq

/-- The SHA-256 bank, and how often it was extended. -/
structure PcrBank where
  value : Nat → Digest
  updateCounter : Nat

variable (sha256 : Bytes → Digest)

def extendValue (value digest : Digest) : Digest := sha256 (value.bytes ++ digest.bytes)

/-- Behind extends, each of one PCR. -/
def PcrBank.extended (bank : PcrBank) (es : List (Nat × Digest)) : PcrBank where
  value := Cells.afterAll (extendValue sha256) bank.value es
  updateCounter := bank.updateCounter + es.length

/-- The PCRs a selection of the indices covers, in ascending order. -/
def selectedPcrs (pcrIndices : List Nat) : List Nat := (List.range 24).filter (· ∈ pcrIndices)

/-- The pcrDigest of a quote. -/
def PcrBank.digest (bank : PcrBank) (pcrIndices : List Nat) : Digest :=
  sha256 ((selectedPcrs pcrIndices).flatMap fun idx => (bank.value idx).bytes)

end Bank

section Responses

def pcrBitmap (pcrIndices : List Nat) : Bytes :=
  pcrIndices.foldl (fun bitmap idx =>
    if idx < 24 then bitmap.modify (idx / 8) (· ||| 1 <<< UInt8.ofNat (idx % 8)) else bitmap) [0, 0, 0]

/-- TPML_PCR_SELECTION. -/
def pcrSelection (pcrIndices : List Nat) : Bytes := beBytes 4 1 ++ (beBytes 2 0x000B ++ ([3] ++ pcrBitmap pcrIndices))

/-- Behind the header of a response to PCR_Read of one PCR. -/
def pcrReadParams (bank : PcrBank) (pcrIndex : Nat) : Bytes :=
  beBytes 4 bank.updateCounter ++ (pcrSelection [pcrIndex] ++ (beBytes 4 (selectedPcrs [pcrIndex]).length ++
    (selectedPcrs [pcrIndex]).flatMap fun idx => writeTpm2b (bank.value idx).bytes))

/-- TPMS_ATTEST of a quote. -/
structure Attest where
  qualifiedSigner : Bytes
  extraData : Bytes
  /-- clockInfo and firmwareVersion. -/
  clock : Bytes
  pcrSelect : List Nat
  pcrDigest : Digest

def Attest.marshal (a : Attest) : Bytes :=
  beBytes 4 0xFF544347 ++ (beBytes 2 0x8018 ++ (writeTpm2b a.qualifiedSigner ++ (writeTpm2b a.extraData ++
    (a.clock ++ (pcrSelection a.pcrSelect ++ writeTpm2b a.pcrDigest.bytes)))))

/-- The pcrDigest stands at the end. -/
def quotedPcrDigest (quoted : Bytes) : Bytes := quoted.drop (quoted.length - 32)

/-- Behind the header of a response to Quote, with the signature and the authorization area as they come. -/
def quoteParams (attest : Attest) (signature : Bytes) : Bytes :=
  let quoted := attest.marshal
  beBytes 4 (2 + quoted.length + signature.length) ++ (beBytes 2 quoted.length ++ (quoted ++ signature))

/-- What becomes of a command that is executed without a change of the TPM, and how much of its response
arrives. -/
inductive Delivery where
  | unsent
  | refused (code : Nat)
  | arrived (n : Nat)

def Delivery.response (tag : Nat) (params : Bytes) : Delivery → Bytes
  | .unsent => []
  | .refused code => refusal code
  | .arrived n => (responseHeader tag (10 + params.length) 0 ++ params).take n

end Responses

section Client

/-- The offset behind that many selections. -/
def skipSelections (resp : Bytes) : Nat → Nat → Option Nat
  | 0, offset => some offset
  | selCount + 1, offset =>
    let offset := offset + 2
    if resp.length ≤ offset then none
    else skipSelections resp selCount (offset + 1 + (resp.getD offset 0).toNat)

/-- PcrRead behind SendCommand. -/
def pcrReadValue (resp : Bytes) : Bytes :=
  if resp.length < 10 then []
  else if readU32 resp 6 ≠ 0 then []
  else if resp.length < 18 then []
  else
    match skipSelections resp (readU32 resp 14) 18 with
    | none => []
    | some offset =>
      if resp.length < offset + 4 then []
      else if 0 < readU32 resp offset ∧ offset + 6 ≤ resp.length then
        let digestSize := readU16 resp (offset + 4)
        if offset + 6 + digestSize ≤ resp.length then (resp.drop (offset + 6)).take digestSize else []
      else []

/-- Quote behind SendCommand: the quoted structure and the signature. -/
def quoteResult (resp : Bytes) : Option (Bytes × Bytes) :=
  if resp.length < 10 then none
  else if readU32 resp 6 ≠ 0 then none
  else if resp.length < 14 then none
  else if resp.length < 16 then none
  else
    let attestSize := readU16 resp 14
    if resp.length < 16 + attestSize then none
    else some ((resp.drop 16).take attestSize, resp.drop (16 + attestSize))

end Client

section Reading
variable {resp : Bytes}

theorem pcrReadValue_fails (h : Fails resp) : pcrReadValue resp = [] := by
  unfold pcrReadValue
  rcases h with hlen | hcode
  · rw [if_pos hlen]
  · rw [if_pos hcode, ite_self]

theorem quoteResult_fails (h : Fails resp) : quoteResult resp = none := by
  unfold quoteResult
  rcases h with hlen | hcode
  · rw [if_pos hlen]
  · rw [if_pos hcode, ite_self]

theorem Delivery.fails_or_arrived (tag : Nat) (params : Bytes) (d : Delivery) :
    Fails (d.response tag params) ∨
      ∃ n, d.response tag params = (responseHeader tag (10 + params.length) 0 ++ params).take n := by
  cases d with
  | unsent => exact .inl (.inl (Nat.zero_lt_succ 9))
  | refused code =>
    have hfails := refusal_fails code (refusal code).length
    rw [List.take_length] at hfails
    exact .inl hfails
  | arrived n => exact .inr ⟨n, rfl⟩

theorem pcrBitmap_length (pcrIndices : List Nat) : (pcrBitmap pcrIndices).length = 3 := by
  have hfold : ∀ bitmap : Bytes, bitmap.length = 3 → (pcrIndices.foldl (fun bitmap idx =>
      if idx < 24 then bitmap.modify (idx / 8) (· ||| 1 <<< UInt8.ofNat (idx % 8)) else bitmap) bitmap).length = 3 := by
    induction pcrIndices with
    | nil => exact fun _ h => h
    | cons idx pcrIndices ih =>
      intro bitmap h
      rw [List.foldl_cons]
      split_ifs
      · exact ih _ (by rwa [List.length_modify])
      · exact ih _ h
  exact hfold [0, 0, 0] rfl

theorem getD_take {p : Bytes} {i n : Nat} (h : i < n) : (p.take n).getD i 0 = p.getD i 0 := by
  rw [List.getD_eq_getElem?_getD, List.getElem?_take, if_pos h, List.getD_eq_getElem?_getD]

private theorem selectedPcrs_single : ∀ idx < 24, selectedPcrs [idx] = [idx] := by decide

/-- The parts of a whole response to PCR_Read. -/
private theorem pcrReadParams_parts (bank : PcrBank) {pcrIndex : Nat} (hidx : pcrIndex < 24) (tag size : Nat) :
    let whole := responseHeader tag size 0 ++ pcrReadParams bank pcrIndex
    readU32 whole 14 = 1 ∧ whole.getD 20 0 = 3 ∧ readU32 whole 24 = 1 ∧ readU16 whole 28 = 32 ∧
      (whole.drop 30).take 32 = (bank.value pcrIndex).bytes := by
  intro whole
  have hparams : pcrReadParams bank pcrIndex = beBytes 4 bank.updateCounter ++ (beBytes 4 1 ++ (beBytes 2 0x000B ++
      ([3] ++ (pcrBitmap [pcrIndex] ++ (beBytes 4 1 ++ (beBytes 2 32 ++ (bank.value pcrIndex).bytes)))))) := by
    simp only [pcrReadParams, selectedPcrs_single pcrIndex hidx, pcrSelection, writeTpm2b, List.flatMap_cons, List.flatMap_nil,
      List.length_singleton, List.append_nil, List.append_assoc, (bank.value pcrIndex).length_eq]
  have hbitmap := pcrBitmap_length [pcrIndex]
  refine ⟨?_, ?_, ?_, ?_, ?_⟩
  · simp only [whole, hparams, ← List.append_assoc (responseHeader tag size 0)]
    exact readU32_append (by simp [responseHeader_length]) (by decide)
  · have hfront : ((responseHeader tag size 0 ++ beBytes 4 bank.updateCounter) ++ (beBytes 4 1 ++ beBytes 2 0x000B)).length =
        20 := by simp [responseHeader_length]
    have hsplit : whole = ((responseHeader tag size 0 ++ beBytes 4 bank.updateCounter) ++ (beBytes 4 1 ++ beBytes 2 0x000B)) ++
        ([3] ++ (pcrBitmap [pcrIndex] ++ (beBytes 4 1 ++ (beBytes 2 32 ++ (bank.value pcrIndex).bytes)))) := by
      simp only [whole, hparams, List.append_assoc]
    rw [hsplit, List.getD_append_right _ _ _ _ (by omega), hfront]
    rfl
  · have hsplit : whole = ((responseHeader tag size 0 ++ beBytes 4 bank.updateCounter) ++ (beBytes 4 1 ++ (beBytes 2 0x000B ++
        ([3] ++ pcrBitmap [pcrIndex])))) ++ (beBytes 4 1 ++ (beBytes 2 32 ++ (bank.value pcrIndex).bytes)) := by
      simp only [whole, hparams, List.append_assoc]
    rw [hsplit]
    exact readU32_append (by simp [responseHeader_length, hbitmap]) (by decide)
  · have hsplit : whole = ((responseHeader tag size 0 ++ beBytes 4 bank.updateCounter) ++ (beBytes 4 1 ++ (beBytes 2 0x000B ++
        ([3] ++ (pcrBitmap [pcrIndex] ++ beBytes 4 1))))) ++ (beBytes 2 32 ++ (bank.value pcrIndex).bytes) := by
      simp only [whole, hparams, List.append_assoc]
    rw [hsplit]
    exact readU16_append (by simp [responseHeader_length, hbitmap]) (by decide)
  · have hfront : ((responseHeader tag size 0 ++ beBytes 4 bank.updateCounter) ++ (beBytes 4 1 ++ (beBytes 2 0x000B ++
        ([3] ++ (pcrBitmap [pcrIndex] ++ (beBytes 4 1 ++ beBytes 2 32)))))).length = 30 := by
      simp [responseHeader_length, hbitmap]
    have hsplit : whole = ((responseHeader tag size 0 ++ beBytes 4 bank.updateCounter) ++ (beBytes 4 1 ++ (beBytes 2 0x000B ++
        ([3] ++ (pcrBitmap [pcrIndex] ++ (beBytes 4 1 ++ beBytes 2 32)))))) ++ (bank.value pcrIndex).bytes := by
      simp only [whole, hparams, List.append_assoc]
    rw [hsplit, ← hfront, List.drop_left, List.take_of_length_le (bank.value pcrIndex).length_eq.le]

/-- What arrives of a response to PCR_Read is read as the value of the PCR, or as nothing. -/
theorem pcrReadValue_response (bank : PcrBank) {pcrIndex : Nat} (hidx : pcrIndex < 24) (tag : Nat) (d : Delivery) :
    pcrReadValue (d.response tag (pcrReadParams bank pcrIndex)) = [] ∨
      pcrReadValue (d.response tag (pcrReadParams bank pcrIndex)) = (bank.value pcrIndex).bytes := by
  rcases d.fails_or_arrived tag (pcrReadParams bank pcrIndex) with hfails | ⟨n, hresp⟩
  · exact .inl (pcrReadValue_fails hfails)
  obtain ⟨hcount, hselect, hdigests, hsize, hvalue⟩ :=
    pcrReadParams_parts bank hidx tag (10 + (pcrReadParams bank pcrIndex).length)
  generalize hwhole : responseHeader tag (10 + (pcrReadParams bank pcrIndex).length) 0 ++ pcrReadParams bank pcrIndex = whole
    at hresp hcount hselect hdigests hsize hvalue
  rw [hresp]
  have hle : (whole.take n).length ≤ n := by
    rw [List.length_take]
    exact Nat.min_le_left _ _
  unfold pcrReadValue
  split_ifs with hshort _ hcounted
  · exact .inl rfl
  · exact .inl rfl
  · exact .inl rfl
  rw [readU32_take (by omega), hcount, skipSelections]
  by_cases hselected : (whole.take n).length ≤ 20
  · exact .inl (by rw [if_pos hselected])
  rw [if_neg hselected, getD_take (by omega), hselect]
  dsimp only [skipSelections]
  split_ifs with hlisted hdigest hfits
  · exact .inl rfl
  · refine .inr ?_
    have htake : readU16 (whole.take n) (18 + 2 + 1 + (3 : UInt8).toNat + 4) = 32 := by
      rw [readU16_take (by omega)]
      exact hsize
    rw [htake] at hfits ⊢
    rw [List.drop_take, List.take_take, min_eq_left (by omega)]
    exact hvalue
  · exact .inl rfl
  · exact .inl rfl

theorem quotedPcrDigest_marshal (attest : Attest) : quotedPcrDigest attest.marshal = attest.pcrDigest.bytes := by
  obtain ⟨front, hfront⟩ : ∃ front, attest.marshal = front ++ attest.pcrDigest.bytes := by
    simp only [Attest.marshal, writeTpm2b, ← List.append_assoc]
    exact ⟨_, rfl⟩
  rw [quotedPcrDigest, hfront, List.length_append, attest.pcrDigest.length_eq, Nat.add_sub_cancel, List.drop_left]

/-- What arrives of a response to Quote has the quoted structure whole, or is not read. -/
theorem quoteResult_response {attest : Attest} (hlt : attest.marshal.length < 2 ^ 16) (signature : Bytes) (tag : Nat)
    (d : Delivery) : ∀ q ∈ quoteResult (d.response tag (quoteParams attest signature)), q.1 = attest.marshal := by
  rcases d.fails_or_arrived tag (quoteParams attest signature) with hfails | ⟨n, hresp⟩
  · rw [quoteResult_fails hfails]
    exact fun _ h => by cases h
  have hfront : (responseHeader tag (10 + (quoteParams attest signature).length) 0 ++
      beBytes 4 (2 + attest.marshal.length + signature.length)).length = 14 := by
    simp [responseHeader_length]
  have hsplit : responseHeader tag (10 + (quoteParams attest signature).length) 0 ++ quoteParams attest signature =
      (responseHeader tag (10 + (quoteParams attest signature).length) 0 ++
        beBytes 4 (2 + attest.marshal.length + signature.length)) ++
          (beBytes 2 attest.marshal.length ++ (attest.marshal ++ signature)) := by
    simp only [quoteParams, List.append_assoc]
  generalize responseHeader tag (10 + (quoteParams attest signature).length) 0 ++
    beBytes 4 (2 + attest.marshal.length + signature.length) = front at hfront hsplit
  rw [hresp, hsplit]
  intro q hq
  have hle := List.length_take_le n (front ++ (beBytes 2 attest.marshal.length ++ (attest.marshal ++ signature)))
  unfold quoteResult at hq
  split_ifs at hq with hshort hcode hparam hsize
  · cases hq
  · cases hq
  · cases hq
  · cases hq
  have hattest : readU16 ((front ++ (beBytes 2 attest.marshal.length ++ (attest.marshal ++ signature))).take n) 14 =
      attest.marshal.length := by
    rw [readU16_take (by omega)]
    exact readU16_append hfront hlt
  simp only [hattest] at hq
  split_ifs at hq with hfits
  · cases hq
  obtain rfl := Option.some.inj hq
  have hdrop : (front ++ (beBytes 2 attest.marshal.length ++ (attest.marshal ++ signature))).drop 16 =
      attest.marshal ++ signature := by
    have hlen : (front ++ beBytes 2 attest.marshal.length).length = 16 := by
      rw [List.length_append, hfront, beBytes_length]
    rw [← List.append_assoc, ← hlen, List.drop_left]
  rw [List.drop_take, hdrop, List.take_take, min_eq_left (by omega), List.take_left]

end Reading
end RootHerald.Windows
