import RootHerald.Lib.Bytes

/-! Functions that look for a place in a text and give what stands behind it. -/
namespace RootHerald.Lib

/-- A text that is cut off has the same place, with its end cut off, or nothing behind it. -/
def Locates {α : Type} (f : List α → List α) : Prop :=
  ∀ s, ∃ front, s = front ++ f s ∧ ∀ n, f (s.take n) = (f s).take (n - front.length)

/-- What stands behind the first element, if it is one looked for. -/
def behindHead {α : Type} (p : α → Bool) : List α → List α
  | [] => []
  | c :: rest => if p c then rest else []

namespace Locates
variable {α : Type} {f g : List α → List α}

theorem comp (hf : Locates f) (hg : Locates g) : Locates fun s => g (f s) := by
  intro s
  obtain ⟨front, hs, hcut⟩ := hf s
  obtain ⟨front', hs', hcut'⟩ := hg (f s)
  refine ⟨front ++ front', ?_, fun n => ?_⟩
  · rw [List.append_assoc, ← hs', ← hs]
  · dsimp only
    rw [hcut, hcut', List.length_append, Nat.sub_sub]

/-- By the length of what stands behind the place. -/
theorem take_eq (hf : Locates f) (s : List α) (n : Nat) : f (s.take n) = (f s).take (n - (s.length - (f s).length)) := by
  obtain ⟨front, hs, hcut⟩ := hf s
  have hlength := congrArg List.length hs
  rw [List.length_append] at hlength
  rw [hcut, hlength, Nat.add_sub_cancel]

theorem dropWhile (p : α → Bool) : Locates (List.dropWhile p) := by
  intro s
  refine ⟨s.takeWhile p, (List.takeWhile_append_dropWhile).symm, fun n => ?_⟩
  induction s generalizing n with
  | nil => rw [List.take_nil, List.dropWhile_nil, List.take_nil]
  | cons c s ih =>
    cases n with
    | zero => rw [Nat.zero_sub, List.take_zero, List.take_zero, List.dropWhile_nil]
    | succ n =>
      rw [List.take_succ_cons]
      cases hc : p c with
      | true =>
        rw [List.dropWhile_cons_of_pos hc, List.dropWhile_cons_of_pos hc, List.takeWhile_cons_of_pos hc, ih,
          List.length_cons, Nat.add_sub_add_right]
      | false =>
        rw [List.dropWhile_cons_of_neg (by rw [hc]; exact Bool.false_ne_true),
          List.dropWhile_cons_of_neg (by rw [hc]; exact Bool.false_ne_true),
          List.takeWhile_cons_of_neg (by rw [hc]; exact Bool.false_ne_true), List.length_nil, Nat.sub_zero,
          List.take_succ_cons]

theorem nothing : Locates fun _ : List α => [] :=
  fun s => ⟨s, (List.append_nil s).symm, fun _ => List.take_nil.symm⟩

theorem behindHead (p : α → Bool) : Locates (Lib.behindHead p) := by
  intro s
  cases s with
  | nil => exact ⟨[], rfl, fun n => by rw [List.take_nil, Lib.behindHead, List.take_nil]⟩
  | cons c s =>
    cases hc : p c with
    | true =>
      have hrest (rest : List α) : Lib.behindHead p (c :: rest) = rest := if_pos hc
      refine ⟨[c], by rw [hrest, List.singleton_append], fun n => ?_⟩
      cases n with
      | zero => rfl
      | succ n => rw [List.take_succ_cons, hrest, hrest, List.length_singleton, Nat.add_sub_cancel]
    | false =>
      have hrest (rest : List α) : Lib.behindHead p (c :: rest) = [] := if_neg (Bool.eq_false_iff.mp hc)
      refine ⟨c :: s, by rw [hrest, List.append_nil], fun n => ?_⟩
      rw [hrest, List.take_nil]
      cases n with
      | zero => rfl
      | succ n => rw [List.take_succ_cons, hrest]

end Locates

section FirstOccurrence
variable {needle s : Bytes} {i n : Nat}

/-- What stands behind the first occurrence; nothing where there is none. -/
def behindFirst (needle s : Bytes) : Bytes :=
  match indexOf needle s with
  | none => []
  | some i => s.drop (i + needle.length)

theorem behindFirst_none (h : indexOf needle s = none) : behindFirst needle s = [] := by
  rw [behindFirst, h]

theorem behindFirst_some (h : indexOf needle s = some i) : behindFirst needle s = s.drop (i + needle.length) := by
  rw [behindFirst, h]

private theorem isPrefixOf_take : needle.isPrefixOf (s.take n) = (needle.isPrefixOf s && decide (needle.length ≤ n)) := by
  rw [Bool.eq_iff_iff, Bool.and_eq_true, decide_eq_true_iff, List.isPrefixOf_iff_prefix, List.isPrefixOf_iff_prefix,
    List.prefix_take_iff]

theorem contains_iff : contains s needle ↔ needle <:+: s := by
  rw [contains]
  induction s with
  | nil =>
    rw [indexOf, List.infix_nil]
    split_ifs with h <;> simp [h]
  | cons b s ih =>
    rw [indexOf, List.infix_cons_iff, ← List.isPrefixOf_iff_prefix]
    split_ifs with h
    · simp [h]
    · rw [Option.isSome_map, ih]
      simp [h]

/-- An occurrence is still there if it ends before the cut. -/
theorem indexOf_take (hne : needle ≠ []) : indexOf needle (s.take n) =
    (indexOf needle s).filter fun i => i + needle.length ≤ n := by
  induction s generalizing n with
  | nil => rw [List.take_nil, indexOf, if_neg hne, Option.filter_none]
  | cons c s ih =>
    cases n with
    | zero =>
      have hnone : (fun i => decide (i + needle.length ≤ 0)) = fun _ => false := by
        funext i
        have hpos := List.length_pos_iff.mpr hne
        exact decide_eq_false (by omega)
      rw [List.take_zero, indexOf, if_neg hne, hnone]
      cases indexOf needle (c :: s) <;> rfl
    | succ n =>
      have hprefix : needle.isPrefixOf ((c :: s).take (n + 1)) = _ := isPrefixOf_take
      rw [List.take_succ_cons] at hprefix ⊢
      rw [indexOf, indexOf, hprefix]
      by_cases hfirst : needle.isPrefixOf (c :: s) = true
      · rw [if_pos hfirst, hfirst, Bool.true_and]
        by_cases hfits : needle.length ≤ n + 1
        · rw [if_pos (decide_eq_true hfits), Option.filter_some, if_pos (by simpa using hfits)]
        · -- nothing can stand later in what is left
          have hlater : (indexOf needle s).filter (fun i => decide (i + needle.length ≤ n)) = none := by
            rw [Option.filter_eq_none_iff]
            intro i _
            simp only [decide_eq_true_eq]
            omega
          rw [decide_eq_false hfits, if_neg Bool.false_ne_true, ih, hlater, Option.filter_some,
            if_neg (by simpa using hfits)]
          rfl
      · have hfalse : needle.isPrefixOf (c :: s) = false := Bool.eq_false_iff.mpr hfirst
        rw [hfalse, Bool.false_and, if_neg Bool.false_ne_true, if_neg Bool.false_ne_true, ih]
        cases indexOf needle s with
        | none => rfl
        | some i =>
          simp only [Option.map_some, Option.filter_some, Nat.add_right_comm i 1, Nat.add_le_add_iff_right]
          split_ifs <;> rfl

theorem indexOf_bound (h : indexOf needle s = some i) : i + needle.length ≤ s.length := by
  induction s generalizing i with
  | nil =>
    obtain ⟨hnil, h⟩ := Option.ite_none_right_eq_some.mp h
    cases h
    rw [hnil]
    exact le_refl _
  | cons c s ih =>
    rw [indexOf] at h
    split_ifs at h with hfirst
    · cases h
      rw [Nat.zero_add]
      exact (List.isPrefixOf_iff_prefix.mp hfirst).length_le
    · obtain ⟨i', hi', rfl⟩ := Option.map_eq_some_iff.mp h
      have hbound := ih hi'
      rw [List.length_cons]
      omega

theorem behindFirst_locates (hne : needle ≠ []) : Locates (behindFirst needle) := by
  intro s
  rw [behindFirst]
  cases hfound : indexOf needle s with
  | none =>
    refine ⟨s, (List.append_nil s).symm, fun n => ?_⟩
    rw [behindFirst, indexOf_take hne, hfound, Option.filter_none, List.take_nil]
  | some i =>
    have hbound := indexOf_bound hfound
    refine ⟨s.take (i + needle.length), (List.take_append_drop _ s).symm, fun n => ?_⟩
    rw [List.length_take, min_eq_left hbound, behindFirst, indexOf_take hne, hfound, Option.filter_some]
    by_cases hfits : i + needle.length ≤ n
    · rw [if_pos (decide_eq_true hfits)]
      exact List.drop_take
    · rw [if_neg (by simpa using hfits), Nat.sub_eq_zero_of_le (by omega), List.take_zero]

theorem behindFirst_singleton {c : UInt8} {front : Bytes} (hc : c ∉ front) (rest : Bytes) :
    behindFirst [c] (front ++ c :: rest) = rest := by
  have hindex : indexOf [c] (front ++ c :: rest) = some front.length := by
    induction front with
    | nil => exact if_pos (by rw [List.isPrefixOf, beq_self_eq_true, Bool.true_and, List.isPrefixOf])
    | cons d front ih =>
      have hne : ¬ [c].isPrefixOf (d :: (front ++ c :: rest)) = true := by
        rw [List.isPrefixOf, Bool.and_eq_true, beq_iff_eq]
        rintro ⟨rfl, -⟩
        exact hc List.mem_cons_self
      rw [List.cons_append, indexOf, if_neg hne, ih fun h => hc (List.mem_cons_of_mem d h)]
      rfl
  rw [behindFirst_some hindex, List.length_singleton, ← List.drop_drop, List.drop_left, List.drop_one, List.tail_cons]

end FirstOccurrence
end RootHerald.Lib
