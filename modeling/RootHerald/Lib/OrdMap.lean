import Mathlib.Algebra.GroupWithZero.Nat
import Mathlib.Data.List.Basic
import Mathlib.Order.Basic
import Mathlib.Tactic.Tauto

/-! Finite maps kept in key order, as an ordered container iterates them. -/
namespace RootHerald.Lib

section Entries
variable {κ ν : Type} [LT κ] [DecidableLT κ] [DecidableEq κ]

/-- Insert or overwrite, keeping the entries in key order. -/
def insertEntry (k : κ) (v : ν) : List (κ × ν) → List (κ × ν)
  | [] => [(k, v)]
  | e :: rest =>
    if k < e.1 then (k, v) :: e :: rest
    else if k = e.1 then (k, v) :: rest
    else e :: insertEntry k v rest

def findEntry {κ ν : Type} [DecidableEq κ] (k : κ) : List (κ × ν) → Option ν
  | [] => none
  | e :: rest => if k = e.1 then some e.2 else findEntry k rest

theorem mem_insertEntry {k : κ} {v : ν} {es : List (κ × ν)} {e : κ × ν}
    (h : e ∈ insertEntry k v es) : e = (k, v) ∨ e ∈ es := by
  induction es with
  | nil => simpa [insertEntry] using h
  | cons e' rest ih =>
    simp only [insertEntry] at h
    split_ifs at h with hlt heq
    · simpa using h
    · rcases List.mem_cons.mp h with h | h
      · exact .inl h
      · exact .inr (List.mem_cons_of_mem _ h)
    · rcases List.mem_cons.mp h with h | h
      · exact .inr (by simp [h])
      · exact (ih h).imp_right (List.mem_cons_of_mem _)

theorem findEntry_insertEntry (k k' : κ) (v : ν) (es : List (κ × ν)) :
    findEntry k' (insertEntry k v es) = if k' = k then some v else findEntry k' es := by
  induction es with
  | nil => rfl
  | cons e rest ih =>
    simp only [insertEntry]
    by_cases hlt : k < e.1
    · rw [if_pos hlt]
      rfl
    rw [if_neg hlt]
    by_cases heq : k = e.1
    · rw [if_pos heq]
      simp only [findEntry, ← heq]
      split_ifs <;> rfl
    rw [if_neg heq]
    simp only [findEntry, ih]
    by_cases hk : k' = k
    · rw [if_pos hk, if_pos hk, if_neg (hk ▸ heq)]
    · rw [if_neg hk, if_neg hk]

theorem sum_insertEntry_le (f : κ × ν → Nat) (k : κ) (v : ν) (es : List (κ × ν)) :
    ((insertEntry k v es).map f).sum ≤ f (k, v) + (es.map f).sum := by
  induction es with
  | nil => simp [insertEntry]
  | cons e rest ih =>
    simp only [insertEntry]
    split_ifs <;> simp only [List.map_cons, List.sum_cons] <;> omega

theorem findEntry_map {κ ν μ : Type} [DecidableEq κ] (f : κ → ν → μ) (k : κ) (es : List (κ × ν)) :
    findEntry k (es.map fun e => (e.1, f e.1 e.2)) = (findEntry k es).map (f k) := by
  induction es with
  | nil => rfl
  | cons e es ih =>
    rw [List.map_cons, findEntry, findEntry, ih]
    by_cases hk : k = e.1
    · rw [if_pos hk, if_pos hk, hk]
      rfl
    · rw [if_neg hk, if_neg hk]

end Entries

section Sorted
variable {κ ν : Type} [LT κ] [LE κ] [Std.IsLinearOrder κ] [Std.LawfulOrderLT κ]

private theorem lt_of_not {a b : κ} (h : ¬ a < b) (hne : a ≠ b) : b < a :=
  Std.lt_of_le_of_ne (Std.not_lt.mp h) (Ne.symm hne)

theorem insertEntry_sorted [DecidableLT κ] [DecidableEq κ] (k : κ) (v : ν) {es : List (κ × ν)}
    (hs : es.Pairwise (fun a b => a.1 < b.1)) :
    (insertEntry k v es).Pairwise (fun a b => a.1 < b.1) := by
  induction es with
  | nil => simp [insertEntry]
  | cons e rest ih =>
    obtain ⟨hhead, htail⟩ := List.pairwise_cons.mp hs
    simp only [insertEntry]
    split_ifs with hlt heq
    · refine List.pairwise_cons.mpr ⟨?_, hs⟩
      intro x hx
      rcases List.mem_cons.mp hx with rfl | hx
      · exact hlt
      · exact Std.lt_trans hlt (hhead x hx)
    · refine List.pairwise_cons.mpr ⟨?_, htail⟩
      intro x hx
      exact heq ▸ hhead x hx
    · refine List.pairwise_cons.mpr ⟨?_, ih htail⟩
      intro x hx
      rcases mem_insertEntry hx with rfl | hx
      · exact lt_of_not hlt heq
      · exact hhead x hx

omit [Std.IsLinearOrder κ] in
/-- A key occurs once, so looking it up finds its entry. -/
theorem findEntry_eq_some_iff [DecidableEq κ] {k : κ} {v : ν} {es : List (κ × ν)}
    (hs : es.Pairwise (fun a b => a.1 < b.1)) : findEntry k es = some v ↔ (k, v) ∈ es := by
  induction es with
  | nil => simp [findEntry]
  | cons e rest ih =>
    obtain ⟨hhead, htail⟩ := List.pairwise_cons.mp hs
    simp only [findEntry, List.mem_cons]
    by_cases hk : k = e.1
    · subst hk
      rw [if_pos rfl]
      refine ⟨fun h => .inl (by rw [← Option.some.inj h]), fun h => ?_⟩
      rcases h with h | h
      · rw [← h]
      · exact absurd (hhead _ h) (Std.lt_irrefl)
    · rw [if_neg hk, ih htail, or_iff_right fun h => hk (congrArg Prod.fst h)]

end Sorted

/-- Entries with strictly increasing keys, hence at most one value a key. -/
structure OrdMap (κ ν : Type) [LT κ] where
  entries : List (κ × ν)
  sorted : entries.Pairwise (fun a b => a.1 < b.1)

namespace OrdMap
variable {κ ν : Type} [LT κ]

@[ext] theorem ext {m m' : OrdMap κ ν} (h : m.entries = m'.entries) : m = m' := by
  cases m
  cases m'
  simpa using h

/-- An entry no key is below stands first. -/
theorem entries_of_least {m : OrdMap κ ν} {e : κ × ν} (he : e ∈ m.entries) (h : ∀ e' ∈ m.entries, ¬ e'.1 < e.1) :
    ∃ rest, m.entries = e :: rest := by
  obtain ⟨front, rest, heq⟩ := List.append_of_mem he
  cases front with
  | nil => exact ⟨rest, heq⟩
  | cons e' front =>
    have hsorted := m.sorted
    rw [heq, List.cons_append] at hsorted
    have hlt := (List.pairwise_cons.mp hsorted).1 e (List.mem_append_right _ List.mem_cons_self)
    exact absurd hlt (h e' (by rw [heq]; exact List.mem_cons_self))

instance [DecidableEq κ] [DecidableEq ν] : DecidableEq (OrdMap κ ν) := fun m m' =>
  decidable_of_iff (m.entries = m'.entries) ⟨OrdMap.ext, fun h => h ▸ rfl⟩

def empty : OrdMap κ ν := ⟨[], .nil⟩

def find? [DecidableEq κ] (m : OrdMap κ ν) (k : κ) : Option ν := findEntry k m.entries

@[simp] theorem find?_empty [DecidableEq κ] (k : κ) : (empty : OrdMap κ ν).find? k = none := rfl

variable [LE κ] [DecidableLT κ] [DecidableEq κ] [Std.IsLinearOrder κ] [Std.LawfulOrderLT κ]

/-- m[k] = v. -/
def insert (m : OrdMap κ ν) (k : κ) (v : ν) : OrdMap κ ν :=
  ⟨insertEntry k v m.entries, insertEntry_sorted k v m.sorted⟩

/-- An initializer list with pairwise distinct keys. -/
def ofList (es : List (κ × ν)) : OrdMap κ ν := es.foldl (fun m e => m.insert e.1 e.2) empty

/-- Reading back a write, and every other key unchanged. -/
@[simp] theorem find?_insert (m : OrdMap κ ν) (k k' : κ) (v : ν) :
    (m.insert k v).find? k' = if k' = k then some v else m.find? k' :=
  findEntry_insertEntry k k' v m.entries

omit [DecidableLT κ] [Std.IsLinearOrder κ] in
theorem mem_entries_iff {m : OrdMap κ ν} {e : κ × ν} : e ∈ m.entries ↔ m.find? e.1 = some e.2 :=
  (findEntry_eq_some_iff m.sorted).symm

theorem mem_insert {m : OrdMap κ ν} {k : κ} {v : ν} {e : κ × ν} :
    e ∈ (m.insert k v).entries ↔ e = (k, v) ∨ e ∈ m.entries ∧ e.1 ≠ k := by
  rw [mem_entries_iff, mem_entries_iff, find?_insert]
  by_cases hk : e.1 = k
  · rw [if_pos hk, Option.some.injEq, or_iff_left fun h => h.2 hk]
    exact ⟨fun hv => Prod.ext hk hv.symm, fun h => by rw [h]⟩
  · rw [if_neg hk, or_iff_right fun h => hk (congrArg Prod.fst h), and_iff_left hk]

theorem find?_insert_if (m : OrdMap κ ν) (k k' : κ) (v : ν) (c : Prop) [Decidable c] :
    (if c then m.insert k v else m).find? k' = if c ∧ k' = k then some v else m.find? k' := by
  by_cases hc : c
  · simp [hc]
  · simp [hc]

/-- A write under a condition to a key that is not there. -/
theorem mem_insert_if {m : OrdMap κ ν} {k : κ} {v : ν} {e : κ × ν} {c : Prop} [Decidable c] (hk : m.find? k = none) :
    e ∈ (if c then m.insert k v else m).entries ↔ e ∈ m.entries ∨ c ∧ e = (k, v) := by
  by_cases hc : c
  · rw [if_pos hc, mem_insert, or_comm, and_iff_right hc]
    refine or_congr_left (and_iff_left_of_imp fun he heq => ?_)
    rw [mem_entries_iff, heq, hk] at he
    cases he
  · rw [if_neg hc, or_iff_left fun h => hc h.1]

/-- A sum over the entries grows by the new entry at most. -/
theorem sum_insert_le (f : κ × ν → Nat) (m : OrdMap κ ν) (k : κ) (v : ν) :
    ((m.insert k v).entries.map f).sum ≤ f (k, v) + (m.entries.map f).sum :=
  sum_insertEntry_le f k v m.entries

theorem sum_foldl_insert_le (f : κ × ν → Nat) (es : List (κ × ν)) (m : OrdMap κ ν) :
    ((es.foldl (fun m e => m.insert e.1 e.2) m).entries.map f).sum ≤ (es.map f).sum + (m.entries.map f).sum := by
  induction es generalizing m with
  | nil => simp
  | cons e es ih =>
    have hrest := ih (m.insert e.1 e.2)
    have hhead : _ ≤ f e + _ := sum_insert_le f m e.1 e.2
    rw [List.foldl_cons, List.map_cons, List.sum_cons]
    omega

/-- Every entry of a map that is written entry by entry was written. -/
theorem mem_foldl_insert {es : List (κ × ν)} {m : OrdMap κ ν} {e : κ × ν}
    (h : e ∈ (es.foldl (fun m e => m.insert e.1 e.2) m).entries) : e ∈ es ∨ e ∈ m.entries := by
  induction es generalizing m with
  | nil => exact .inr h
  | cons e' es ih =>
    rcases ih h with hes | hm
    · exact .inl (List.mem_cons_of_mem _ hes)
    · rcases mem_insert.1 hm with rfl | hm
      · exact .inl List.mem_cons_self
      · exact .inr hm.1

/-- An initializer list with pairwise distinct keys holds what it lists. -/
theorem mem_ofList {es : List (κ × ν)} (hkeys : (es.map Prod.fst).Nodup) {e : κ × ν} :
    e ∈ (ofList es).entries ↔ e ∈ es := by
  have hfold : ∀ m : OrdMap κ ν, e ∈ (es.foldl (fun m e => m.insert e.1 e.2) m).entries ↔
      e ∈ es ∨ e ∈ m.entries ∧ e.1 ∉ es.map Prod.fst := by
    induction es with
    | nil => simp
    | cons e' rest ih =>
      obtain ⟨hhead, htail⟩ := List.nodup_cons.mp hkeys
      intro m
      rw [List.foldl_cons, ih htail, mem_insert, List.mem_cons, List.map_cons, List.mem_cons]
      by_cases he : e = e'
      · subst he
        simp [hhead]
      · simp only [he, false_or]
        tauto
  rw [ofList, hfold]
  simp [empty]

end OrdMap
end RootHerald.Lib
