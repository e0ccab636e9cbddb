import RootHerald.Lib.Bytes
import Mathlib.Data.List.TakeWhile

/-! Text in buffers of a fixed capacity: what fits in front of its terminating NUL, and the copy that
leaves out what does not. -/
namespace RootHerald.Lib

/-- A text without a NUL that leaves room for one. -/
structure FitsBuffer (capacity : Nat) (s : Bytes) : Prop where
  length_lt : s.length < capacity
  no_nul : 0 ∉ s

instance (capacity : Nat) (s : Bytes) : Decidable (FitsBuffer capacity s) :=
  decidable_of_iff (s.length < capacity ∧ 0 ∉ s) ⟨fun h => ⟨h.1, h.2⟩, fun h => ⟨h.1, h.2⟩⟩

theorem fitsBuffer_nil {capacity : Nat} (h : 0 < capacity) : FitsBuffer capacity [] := ⟨h, List.not_mem_nil⟩

theorem FitsBuffer.mono {m n : Nat} {s : Bytes} (h : FitsBuffer m s) (hle : m ≤ n) : FitsBuffer n s :=
  ⟨h.length_lt.trans_le hle, h.no_nul⟩

theorem FitsBuffer.append {m n : Nat} {s t : Bytes} (hs : FitsBuffer (m + 1) s) (ht : FitsBuffer n t) :
    FitsBuffer (m + n) (s ++ t) := by
  have hlen := hs.length_lt
  have hlen' := ht.length_lt
  refine ⟨?_, fun hmem => (List.mem_append.mp hmem).elim hs.no_nul ht.no_nul⟩
  rw [List.length_append]
  omega

/-- A copy up to the first NUL, as much of it as fits. -/
def truncatedCopy (capacity : Nat) (s : Bytes) : Bytes := (s.takeWhile (· ≠ 0)).take (capacity - 1)

theorem truncatedCopy_fits {capacity : Nat} (h : 0 < capacity) (s : Bytes) :
    FitsBuffer capacity (truncatedCopy capacity s) := by
  have hlen := List.length_take_le (capacity - 1) (s.takeWhile (· ≠ 0))
  refine ⟨by rw [truncatedCopy]; omega, fun hmem => ?_⟩
  have hzero := List.mem_takeWhile_imp (List.mem_of_mem_take hmem)
  simp at hzero

/-- What fits is copied whole. -/
theorem truncatedCopy_eq_self {capacity : Nat} {s : Bytes} (h : FitsBuffer capacity s) :
    truncatedCopy capacity s = s := by
  have hwhole : s.takeWhile (· ≠ 0) = s := by
    refine List.takeWhile_eq_self_iff.mpr fun c hc => decide_eq_true fun hzero => ?_
    exact h.no_nul (hzero ▸ hc)
  rw [truncatedCopy, hwhole]
  exact List.take_of_length_le (Nat.le_sub_one_of_lt h.length_lt)

end RootHerald.Lib
