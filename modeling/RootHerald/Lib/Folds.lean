import Mathlib.Data.List.Dedup
import Mathlib.Data.List.Perm.Subperm

/-! One observation of a left fold, when each step fixes it or joins a test of the element to it, and
the fold that collects the new elements of a list up to a bound. -/
namespace RootHerald.Lib

theorem foldl_fixed {α β γ : Type} {f : β → α → β} {g : β → γ} (h : ∀ b a, g (f b a) = g b) (as : List α) (b : β) :
    g (as.foldl f b) = g b := by
  induction as generalizing b with
  | nil => rfl
  | cons a as ih => rw [List.foldl_cons, ih, h]

theorem foldl_or {α β : Type} {f : β → α → β} {g : β → Bool} {p : α → Bool} (h : ∀ b a, g (f b a) = (g b || p a))
    (as : List α) (b : β) : g (as.foldl f b) = (g b || as.any p) := by
  induction as generalizing b with
  | nil => simp
  | cons a as ih => rw [List.foldl_cons, ih, h, List.any_cons, Bool.or_assoc]

/-- A step that sets the observation on some elements leaves the last value set. -/
theorem foldl_last {α β γ : Type} {f : β → α → β} {g : β → γ} {s : α → Option γ}
    (h : ∀ b a, g (f b a) = (s a).getD (g b)) (as : List α) (b : β) :
    g (as.foldl f b) = (as.filterMap s).getLast?.getD (g b) := by
  induction as generalizing b with
  | nil => rfl
  | cons a as ih =>
    rw [List.foldl_cons, ih, h, List.filterMap_cons]
    cases s a with
    | none => rfl
    | some c => simp [List.getLast?_cons]

section AddNew
variable {α : Type} [DecidableEq α]

/-- An element joins those kept if it is new and there is room. -/
def addNew (cap : Nat) (kept : List α) (a : α) : List α :=
  if cap ≤ kept.length ∨ a ∈ kept then kept else kept ++ [a]

variable {cap : Nat} {kept as : List α} {a b : α}

theorem mem_addNew (h : a ∈ addNew cap kept b) : a ∈ kept ∨ a = b := by
  unfold addNew at h
  split_ifs at h
  · exact .inl h
  · simpa using h

theorem prefix_foldl_addNew (cap : Nat) (kept as : List α) : kept <+: as.foldl (addNew cap) kept := by
  induction as generalizing kept with
  | nil => exact List.prefix_rfl
  | cons a as ih =>
    refine List.IsPrefix.trans ?_ (ih (addNew cap kept a))
    unfold addNew
    split_ifs
    · exact List.prefix_rfl
    · exact List.prefix_append _ _

theorem mem_foldl_addNew (h : a ∈ as.foldl (addNew cap) kept) : a ∈ kept ∨ a ∈ as := by
  induction as generalizing kept with
  | nil => exact .inl h
  | cons b as ih =>
    rcases ih h with hkept | has
    · exact (mem_addNew hkept).imp_right fun heq => List.mem_cons.mpr (.inl heq)
    · exact .inr (List.mem_cons_of_mem _ has)

theorem foldl_addNew_nodup (h : kept.Nodup) : (as.foldl (addNew cap) kept).Nodup := by
  induction as generalizing kept with
  | nil => exact h
  | cons a as ih =>
    apply ih
    unfold addNew
    split_ifs with hold
    · exact h
    · exact List.nodup_append.mpr ⟨h, List.nodup_singleton a, by
        rintro b hb _ hmem rfl
        exact hold (.inr (List.mem_singleton.mp hmem ▸ hb))⟩

/-- As long as there was room, every element is kept. -/
theorem foldl_addNew_complete (h : (as.foldl (addNew cap) kept).length < cap) (ha : a ∈ as) :
    a ∈ as.foldl (addNew cap) kept := by
  induction as generalizing kept with
  | nil => cases ha
  | cons b as ih =>
    rcases List.mem_cons.mp ha with rfl | ha
    · have hroom : kept.length < cap := Nat.lt_of_le_of_lt (prefix_foldl_addNew cap kept (a :: as)).length_le h
      refine (prefix_foldl_addNew cap (addNew cap kept a) as).subset ?_
      unfold addNew
      split_ifs with hold
      · exact hold.resolve_left (by omega)
      · exact List.mem_append_right _ (List.mem_singleton_self a)
    · exact ih h ha

/-- Distinct elements of a list, as many as it has distinct elements, are all of them. -/
theorem mem_of_nodup_of_length {bs : List α} (hnodup : as.Nodup) (hsub : ∀ a ∈ as, a ∈ bs)
    (hlen : bs.dedup.length ≤ as.length) (ha : a ∈ bs) : a ∈ as := by
  have hperm : as.Subperm bs.dedup := hnodup.subperm fun b hb => List.mem_dedup.mpr (hsub b hb)
  exact (hperm.perm_of_length_le hlen).mem_iff.mpr (List.mem_dedup.mpr ha)

end AddNew
end RootHerald.Lib
