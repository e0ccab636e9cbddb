import RootHerald.Windows.PcrCommands

/-! A response to TPM2_PCR_Read read field by field, and PcrRead on any bytes TBS may answer. -/
namespace RootHerald.Windows
open Lib

section Grammar

/-- Behind that many TPMS_PCR_SELECTION, each a hash algorithm and a sized bit map. -/
def skipSelects : Nat → Bytes → Option Bytes
  | 0, s => some s
  | n + 1, s => do
    let (_, s) ← takeBytes 2 s
    let (_, s) ← takeSized 1 s
    skipSelects n s

/-- The first of the digests that a response with code success returns. -/
def firstDigest (resp : Bytes) : Option Bytes := do
  let (_, s) ← takeBytes 6 resp
  let (code, s) ← takeBytes 4 s
  guard (beNat code = 0)
  let (_updateCounter, s) ← takeBytes 4 s
  let (count, s) ← takeBytes 4 s
  let s ← skipSelects (beNat count) s
  let (count, s) ← takeBytes 4 s
  guard (0 < beNat count)
  let (digest, _) ← takeSized 2 s
  return digest

end Grammar

section Offsets
variable {resp : Bytes} {offset offset' n : Nat}

theorem takeBytes_drop (h : offset ≤ resp.length) : takeBytes n (resp.drop offset) =
    if offset + n ≤ resp.length then some ((resp.drop offset).take n, resp.drop (offset + n)) else none := by
  unfold takeBytes
  rw [List.length_drop, List.drop_drop]
  by_cases hle : offset + n ≤ resp.length
  · rw [if_pos (by omega), if_pos hle]
  · rw [if_neg (by omega), if_neg hle]

private theorem getElem?_of_lt {i : Nat} (h : i < resp.length) : resp[i]? = some (resp.getD i 0) := by
  rw [List.getD_eq_getElem?_getD, List.getElem?_eq_getElem h]
  rfl

theorem take_drop_one (h : offset + 1 ≤ resp.length) : (resp.drop offset).take 1 = [resp.getD offset 0] := by
  rw [List.take_one, List.head?_drop, getElem?_of_lt h]
  rfl

theorem take_drop_two (h : offset + 2 ≤ resp.length) :
    (resp.drop offset).take 2 = [resp.getD offset 0, resp.getD (offset + 1) 0] := by
  rw [show 2 = 1 + 1 from rfl, List.take_add, List.drop_drop, take_drop_one (by omega), take_drop_one (by omega)]
  rfl

theorem beNat_take_two (h : offset + 2 ≤ resp.length) : beNat ((resp.drop offset).take 2) = readU16 resp offset := by
  rw [take_drop_two h]
  rfl

theorem beNat_take_four (h : offset + 4 ≤ resp.length) : beNat ((resp.drop offset).take 4) = readU32 resp offset := by
  rw [show 4 = 2 + 2 from rfl, List.take_add, List.drop_drop, take_drop_two (by omega), take_drop_two (by omega)]
  rfl

theorem takeSized_one_drop (h : offset ≤ resp.length) : takeSized 1 (resp.drop offset) =
    if offset + 1 + (resp.getD offset 0).toNat ≤ resp.length ∧ offset < resp.length then
      some ((resp.drop (offset + 1)).take (resp.getD offset 0).toNat, resp.drop (offset + 1 + (resp.getD offset 0).toNat))
    else none := by
  unfold takeSized
  rw [takeBytes_drop h]
  by_cases hlt : offset < resp.length
  · have hone : beNat ((resp.drop offset).take 1) = (resp.getD offset 0).toNat := by
      rw [take_drop_one hlt]
      simp [beNat, leNat]
    rw [if_pos (by omega : offset + 1 ≤ resp.length)]
    simp only [Option.bind_eq_bind, Option.bind_some, hone, takeBytes_drop hlt, hlt, and_true]
  · rw [if_neg (by omega), if_neg fun h => hlt h.2]
    rfl

theorem takeSized_two_drop (h : offset ≤ resp.length) : takeSized 2 (resp.drop offset) =
    if offset + 2 ≤ resp.length ∧ offset + 2 + readU16 resp offset ≤ resp.length then
      some ((resp.drop (offset + 2)).take (readU16 resp offset), resp.drop (offset + 2 + readU16 resp offset))
    else none := by
  unfold takeSized
  rw [takeBytes_drop h]
  by_cases hle : offset + 2 ≤ resp.length
  · rw [if_pos hle]
    simp only [Option.bind_eq_bind, Option.bind_some, beNat_take_two hle, takeBytes_drop hle, hle, true_and]
  · rw [if_neg hle, if_neg fun h => hle h.1]
    rfl

end Offsets

section Reading
variable {resp : Bytes} {n offset offset' : Nat}

theorem skipSelections_le (h : skipSelections resp n offset = some offset') : offset ≤ offset' := by
  induction n generalizing offset with
  | zero => exact (Option.some.inj h).le
  | succ n ih =>
    rw [skipSelections] at h
    obtain ⟨-, h⟩ := Option.ite_none_left_eq_some.mp h
    have hle := ih h
    omega

/-- The client's offset stands where the selections end, or behind the response. -/
theorem skipSelects_drop (h : offset ≤ resp.length) : skipSelects n (resp.drop offset) =
    (skipSelections resp n offset).bind fun offset' =>
      if offset' ≤ resp.length then some (resp.drop offset') else none := by
  induction n generalizing offset with
  | zero => exact (if_pos h).symm
  | succ n ih =>
    rw [skipSelects, skipSelections, takeBytes_drop h]
    by_cases hhash : offset + 2 < resp.length
    · have hsize : ¬ resp.length ≤ offset + 2 := not_le.mpr hhash
      rw [if_pos hhash.le, if_neg hsize]
      simp only [Option.bind_eq_bind, Option.bind_some, takeSized_one_drop hhash.le, hhash, and_true]
      by_cases hselect : offset + 2 + 1 + (resp.getD (offset + 2) 0).toNat ≤ resp.length
      · rw [if_pos hselect, Option.bind_some, ih hselect]
      · rw [if_neg hselect, Option.bind_none]
        cases hskip : skipSelections resp n (offset + 2 + 1 + (resp.getD (offset + 2) 0).toNat) with
        | none => rfl
        | some offset' =>
          have hle := skipSelections_le hskip
          rw [Option.bind_some, if_neg (by omega)]
    · rw [if_pos (by omega : resp.length ≤ offset + 2), Option.bind_none]
      split_ifs with hle
      · simp only [Option.bind_eq_bind, Option.bind_some, takeSized_one_drop hle, hhash, and_false, if_false,
          Option.bind_none]
      · rfl

/-- The digests, with the client at their offset. -/
private theorem firstOfDigests (h : offset ≤ resp.length) :
    (if resp.length < offset + 4 then []
      else if 0 < readU32 resp offset ∧ offset + 6 ≤ resp.length then
        if offset + 6 + readU16 resp (offset + 4) ≤ resp.length then
          (resp.drop (offset + 6)).take (readU16 resp (offset + 4))
        else []
      else []) =
    (do
      let (count, s) ← takeBytes 4 (resp.drop offset)
      guard (0 < beNat count)
      let (digest, _) ← takeSized 2 s
      return digest : Option Bytes).getD [] := by
  rw [takeBytes_drop h]
  by_cases hcount : offset + 4 ≤ resp.length
  · rw [if_neg (not_lt.mpr hcount), if_pos hcount]
    simp only [Option.bind_eq_bind, Option.bind_some, beNat_take_four hcount, takeSized_two_drop hcount]
    by_cases hpos : 0 < readU32 resp offset
    · by_cases hsize : offset + 6 ≤ resp.length
      · by_cases hdigest : offset + 6 + readU16 resp (offset + 4) ≤ resp.length
        · simp [hpos, hsize, hdigest, guard]
        · simp [hpos, hsize, hdigest, guard]
      · simp [hpos, hsize, guard]
    · simp [hpos, guard]
  · rw [if_pos (not_le.mp hcount), if_neg hcount]
    rfl

/-- PcrRead answers the first digest of the response, and nothing where there is none. -/
theorem pcrReadValue_eq (resp : Bytes) : pcrReadValue resp = (firstDigest resp).getD [] := by
  unfold pcrReadValue firstDigest
  by_cases hheader : 10 ≤ resp.length
  swap
  · rw [if_pos (not_le.mp hheader)]
    by_cases hsix : 6 ≤ resp.length
    · rw [takeBytes, if_pos hsix]
      simp only [Option.bind_eq_bind, Option.bind_some, takeBytes_drop hsix, if_neg hheader, Option.bind_none,
        Option.getD_none]
    · rw [takeBytes, if_neg hsix]
      rfl
  have hsix : 6 ≤ resp.length := by omega
  rw [if_neg (not_lt.mpr hheader), takeBytes, if_pos hsix]
  simp only [Option.bind_eq_bind, Option.bind_some, takeBytes_drop hsix, if_pos hheader, beNat_take_four hheader]
  by_cases hcode : readU32 resp 6 = 0
  swap
  · rw [if_pos hcode, guard, if_neg hcode]
    rfl
  rw [if_neg (not_not.mpr hcode), guard, if_pos hcode]
  simp only [Option.pure_def, Option.bind_some, takeBytes_drop hheader]
  by_cases hlisted : 18 ≤ resp.length
  swap
  · rw [if_pos (not_le.mp hlisted)]
    split_ifs with hcounter
    · simp only [Option.bind_some, takeBytes_drop hcounter, if_neg hlisted, Option.bind_none, Option.getD_none]
    · rfl
  have hcounter : 14 ≤ resp.length := by omega
  rw [if_neg (not_lt.mpr hlisted), if_pos hcounter]
  simp only [Option.bind_some, takeBytes_drop hcounter, if_pos hlisted, beNat_take_four hlisted, skipSelects_drop hlisted]
  cases hskip : skipSelections resp (readU32 resp 14) 18 with
  | none => rfl
  | some offset =>
    simp only [Option.bind_some]
    by_cases hle : offset ≤ resp.length
    · rw [if_pos hle, Option.bind_some]
      exact firstOfDigests hle
    · rw [if_neg hle, if_pos (by omega)]
      rfl

end Reading
end RootHerald.Windows
