import RootHerald.Lib.Locators

/-! A text of segments between marks, and the first segment that is looked for. -/
namespace RootHerald.Lib

/-- Segments, each behind a mark. -/
def marked (mark : UInt8) (segments : List Bytes) : Bytes := segments.flatMap (mark :: ·)

variable {mark : UInt8} {needle key s : Bytes}

theorem marked_cons (mark : UInt8) (s : Bytes) (segments : List Bytes) :
    marked mark (s :: segments) = mark :: (s ++ marked mark segments) := rfl

private theorem indexOf_later {c : UInt8} (h : ¬ needle.isPrefixOf (c :: s) = true) :
    behindFirst needle (c :: s) = behindFirst needle s := by
  have hstep : indexOf needle (c :: s) = (indexOf needle s).map (· + 1) := if_neg h
  cases hfound : indexOf needle s with
  | none =>
    rw [hfound] at hstep
    rw [behindFirst_none hstep, behindFirst_none hfound]
  | some i =>
    rw [hfound] at hstep
    rw [behindFirst_some hstep, behindFirst_some hfound, Nat.add_right_comm]
    rfl

/-- What starts with a mark is found no earlier than the mark. -/
theorem behindFirst_front {front : Bytes} (hmark : mark ∉ front) (s : Bytes) :
    behindFirst (mark :: needle) (front ++ s) = behindFirst (mark :: needle) s := by
  induction front with
  | nil => rfl
  | cons c front ih =>
    rw [List.mem_cons, not_or] at hmark
    rw [List.cons_append, indexOf_later, ih hmark.2]
    rw [List.isPrefixOf, Bool.and_eq_true, beq_iff_eq]
    exact fun h => hmark.1 h.1

/-- Two segments up to their next marks. -/
private theorem segment_eq (hkey : mark ∉ key) (hs : mark ∉ s) {t u : Bytes}
    (h : key ++ mark :: t = s ++ mark :: u) : key = s := by
  have hfront {x : Bytes} (hx : mark ∉ x) (y : Bytes) : (x ++ mark :: y).takeWhile (· ≠ mark) = x := by
    rw [List.takeWhile_append_of_pos fun c hc => decide_eq_true (ne_of_mem_of_not_mem hc hx),
      List.takeWhile_cons_of_neg (by simp), List.append_nil]
  rw [← hfront hkey t, h, hfront hs]

/-- A segment that is not the one looked for is passed over. -/
theorem behindFirst_marked_ne (hkey : mark ∉ key) (hs : mark ∉ s) (hne : s ≠ key) (s' : Bytes) (segments : List Bytes) :
    behindFirst (mark :: (key ++ [mark])) (marked mark (s :: s' :: segments)) =
      behindFirst (mark :: (key ++ [mark])) (marked mark (s' :: segments)) := by
  rw [marked_cons, indexOf_later, behindFirst_front hs]
  rw [List.isPrefixOf_iff_prefix, List.cons_prefix_cons, and_iff_right rfl]
  rintro ⟨t, ht⟩
  rw [List.append_assoc, List.singleton_append, marked_cons] at ht
  exact hne (segment_eq hkey hs ht).symm

theorem behindFirst_marked_eq (key s' : Bytes) (segments : List Bytes) :
    behindFirst (mark :: (key ++ [mark])) (marked mark (key :: s' :: segments)) = s' ++ marked mark segments := by
  have htext : marked mark (key :: s' :: segments) = mark :: (key ++ [mark]) ++ (s' ++ marked mark segments) := by
    simp [marked_cons]
  have hfirst : indexOf (mark :: (key ++ [mark])) (marked mark (key :: s' :: segments)) = some 0 := by
    rw [marked_cons, indexOf, if_pos]
    rw [← marked_cons, List.isPrefixOf_iff_prefix, htext]
    exact List.prefix_append _ _
  rw [behindFirst_some hfirst, Nat.zero_add, htext, List.drop_left]

end RootHerald.Lib
