import RootHerald.Lib.Checked

/-! Buffers of a fixed length, written at an offset. Behind what is written they keep what they held. -/
namespace RootHerald.Lib

/-- memcpy of bs to buf + off. -/
def writeRange (buf : Bytes) (off : Nat) (bs : Bytes) : Checked Bytes :=
  if off + bs.length ≤ buf.length then .ok (buf.take off ++ bs ++ buf.drop (off + bs.length)) else .error .outOfBounds

/-- A write behind the part that is written already. -/
theorem writeRange_append (done bs rest : Bytes) (h : bs.length ≤ rest.length) :
    writeRange (done ++ rest) done.length bs = .ok (done ++ bs ++ rest.drop bs.length) := by
  have hfits : done.length + bs.length ≤ (done ++ rest).length := by
    rw [List.length_append]
    exact Nat.add_le_add_left h _
  rw [writeRange, if_pos hfits, List.take_left, List.drop_length_add_append]

/-- A string and its terminator behind the part that is written already. -/
theorem writeRange_terminated (done bs rest : Bytes) (h : bs.length < rest.length) :
    (do writeRange (← writeRange (done ++ rest) done.length bs) (done.length + bs.length) [0]) =
      .ok (done ++ bs ++ 0 :: rest.drop (bs.length + 1)) := by
  have hend : 1 ≤ (rest.drop bs.length).length := by
    rw [List.length_drop]
    exact Nat.sub_pos_of_lt h
  have hterminator := writeRange_append (done ++ bs) [0] _ hend
  rw [List.length_append] at hterminator
  rw [writeRange_append done bs rest (Nat.le_of_lt h), ok_bind, hterminator, List.drop_drop, List.append_assoc]
  rfl

end RootHerald.Lib
