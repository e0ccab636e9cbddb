import RootHerald.Lib.Fields
import RootHerald.Lib.PrefixCode

/-! Messages behind their 32-bit little-endian length. -/
namespace RootHerald.Lib

/-- A message of at most this many bytes. -/
abbrev Framed (limit : Nat) := { m : Bytes // m.length ≤ limit }

def writeFrame (m : Bytes) : Bytes := bytes32 (UInt32.ofNat m.length) ++ m

/-- A length over the limit, or over what follows it, starts no frame. -/
def readFrame (limit : Nat) (s : Bytes) : Option (Framed limit × Bytes) :=
  (take32 s).bind fun f =>
    if h : f.1.toNat ≤ limit ∧ f.1.toNat ≤ f.2.length then
      some (⟨f.2.take f.1.toNat, (List.length_take_le _ _).trans h.1⟩, f.2.drop f.1.toNat)
    else none

theorem readFrame_writeFrame {limit : Nat} (hlimit : limit < 2 ^ 32) (m : Framed limit) (rest : Bytes) :
    readFrame limit (writeFrame m.1 ++ rest) = some (m, rest) := by
  have hlength : (UInt32.ofNat m.1.length).toNat = m.1.length := UInt32.toNat_ofNat_of_lt' (m.2.trans_lt hlimit)
  rw [writeFrame, List.append_assoc, readFrame, take32_bytes32, Option.bind_some]
  simp only [hlength, List.length_append]
  rw [dif_pos ⟨m.2, Nat.le_add_right _ _⟩]
  simp only [List.take_left, List.drop_left]

theorem writeFrame_readFrame {limit : Nat} {s rest : Bytes} {m : Framed limit}
    (h : readFrame limit s = some (m, rest)) : s = writeFrame m.1 ++ rest := by
  obtain ⟨⟨length, tail⟩, htake, hframe⟩ := Option.bind_eq_some_iff.mp h
  dsimp only at hframe
  split_ifs at hframe with hfits
  cases hframe
  rw [take32_eq_some.mp htake, writeFrame, List.length_take_of_le hfits.2, UInt32.ofNat_toNat, List.append_assoc,
    List.take_append_drop]

/-- Every limit below 2 ^ 32 makes the frames a code. -/
def frames (limit : Nat) (hlimit : limit < 2 ^ 32) : PrefixCode (Framed limit) UInt8 where
  write m := writeFrame m.1
  read := readFrame limit
  read_write := readFrame_writeFrame hlimit
  write_read _ _ _ := writeFrame_readFrame
  write_ne m := by
    apply List.ne_nil_of_length_pos
    rw [writeFrame, List.length_append, bytes32_length]
    exact Nat.lt_of_lt_of_le (by decide) (Nat.le_add_right 4 _)

theorem wordLimit_lt : UInt32.size - 1 < 2 ^ 32 := by decide

end RootHerald.Lib
