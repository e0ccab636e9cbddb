import Mathlib.Logic.Equiv.Defs
import RootHerald.Lib.Fields

/-! Formats of byte strings, put together from fields. A format reads back what it writes in front of any
rest, and reads nothing else. -/
namespace RootHerald.Lib

structure Format (α : Type) where
  /-- The values that have a form. -/
  Fits : α → Prop
  write : α → Bytes
  read : Bytes → Option (α × Bytes)
  read_write : ∀ {a}, Fits a → ∀ rest, read (write a ++ rest) = some (a, rest)
  write_read : ∀ {s a rest}, read s = some (a, rest) → Fits a ∧ s = write a ++ rest

namespace Format
variable {α β : Type}

theorem read_eq_some (A : Format α) {s rest : Bytes} {a : α} :
    A.read s = some (a, rest) ↔ A.Fits a ∧ s = A.write a ++ rest := by
  constructor
  · exact A.write_read
  · rintro ⟨ha, rfl⟩
    exact A.read_write ha rest

/-- The value whose form is the whole string. -/
def whole (A : Format α) (s : Bytes) : Option α :=
  match A.read s with
  | some (a, []) => some a
  | _ => none

theorem whole_eq_some (A : Format α) {s : Bytes} {a : α} : A.whole s = some a ↔ A.Fits a ∧ s = A.write a := by
  constructor
  · intro h
    unfold whole at h
    split at h
    · rename_i hread
      cases h
      simpa using A.write_read hread
    · cases h
  · rintro ⟨ha, rfl⟩
    have hread := A.read_write ha []
    rw [List.append_nil] at hread
    rw [whole, hread]

/-- A value that is read back from its form has one. -/
theorem fits_of_whole (A : Format α) {a : α} (h : A.whole (A.write a) = some a) : A.Fits a := (A.whole_eq_some.1 h).1

section Fields

theorem beBytes_beNat (q : Bytes) : beBytes q.length (beNat q) = q := by
  rw [beBytes, beNat, ← List.length_reverse, leBytes_leNat, List.reverse_reverse]

/-- A number in k bytes, most significant first. -/
def word (k : Nat) : Format Nat where
  Fits n := n < 256 ^ k
  write n := beBytes k n
  read s := (takeBytes k s).map fun f => (beNat f.1, f.2)
  read_write {n} hn rest := by
    rw [takeBytes_eq_some.mpr ⟨rfl, beBytes_length k n⟩, Option.map_some, beNat_beBytes hn]
  write_read {s n rest} h := by
    obtain ⟨⟨q, r⟩, htake, hread⟩ := Option.map_eq_some_iff.mp h
    cases hread
    obtain ⟨hs, hq⟩ := takeBytes_eq_some.mp htake
    have hlt := leNat_lt q.reverse
    rw [List.length_reverse, hq] at hlt
    refine ⟨hlt, ?_⟩
    rw [hs, ← hq, beBytes_beNat]

/-- Bytes that are always the same. -/
def literal (q : Bytes) : Format Unit where
  Fits _ := True
  write _ := q
  read s := if q.isPrefixOf s then some ((), s.drop q.length) else none
  read_write {_} _ rest := by simp
  write_read {s _ rest} h := by
    obtain ⟨hfront, h⟩ := Option.ite_none_right_eq_some.mp h
    cases h
    obtain ⟨rest, rfl⟩ := List.isPrefixOf_iff_prefix.mp hfront
    simp

/-- One form behind another that decides on it. -/
def dep (A : Format α) (B : α → Format β) : Format (α × β) where
  Fits p := A.Fits p.1 ∧ (B p.1).Fits p.2
  write p := A.write p.1 ++ (B p.1).write p.2
  read s := (A.read s).bind fun f => ((B f.1).read f.2).map fun g => ((f.1, g.1), g.2)
  read_write {p} hp rest := by
    rw [List.append_assoc, A.read_write hp.1, Option.bind_some, (B p.1).read_write hp.2, Option.map_some]
  write_read {s p rest} h := by
    obtain ⟨⟨a, s'⟩, ha, h⟩ := Option.bind_eq_some_iff.mp h
    obtain ⟨⟨b, r⟩, hb, h⟩ := Option.map_eq_some_iff.mp h
    cases h
    obtain ⟨hfits, rfl⟩ := A.write_read ha
    obtain ⟨hfits', rfl⟩ := (B a).write_read hb
    exact ⟨⟨hfits, hfits'⟩, (List.append_assoc _ _ _).symm⟩

def pair (A : Format α) (B : Format β) : Format (α × β) := A.dep fun _ => B

/-- The values of β that come from a value of α have its form. -/
def prism (A : Format α) (f : α → β) (g : β → Option α) (hg : ∀ a b, g b = some a ↔ b = f a) : Format β where
  Fits b := ∃ a, g b = some a ∧ A.Fits a
  write b := ((g b).map A.write).getD []
  read s := (A.read s).map fun r => (f r.1, r.2)
  read_write {b} hb rest := by
    obtain ⟨a, ha, hfits⟩ := hb
    rw [ha, Option.map_some, Option.getD_some, A.read_write hfits, Option.map_some, (hg a b).mp ha]
  write_read {s b rest} h := by
    obtain ⟨⟨a, r⟩, ha, h⟩ := Option.map_eq_some_iff.mp h
    cases h
    obtain ⟨hfits, hs⟩ := A.write_read ha
    have hback := (hg a (f a)).mpr rfl
    exact ⟨⟨a, hback, hfits⟩, by rw [hs, hback, Option.map_some, Option.getD_some]⟩

theorem prism_fits {A : Format α} {f : α → β} {g : β → Option α} {hg : ∀ a b, g b = some a ↔ b = f a} {a : α} {b : β}
    (hb : b = f a) : (A.prism f g hg).Fits b ↔ A.Fits a := by
  have hback := (hg a b).mpr hb
  constructor
  · rintro ⟨a', ha', hfits⟩
    rw [hback] at ha'
    cases ha'
    exact hfits
  · intro hfits
    exact ⟨a, hback, hfits⟩

/-- The same form for values in another shape. -/
def via (A : Format α) (e : α ≃ β) : Format β where
  Fits b := A.Fits (e.symm b)
  write b := A.write (e.symm b)
  read s := (A.read s).map fun r => (e r.1, r.2)
  read_write {b} hb rest := by
    rw [A.read_write hb, Option.map_some, e.apply_symm_apply]
  write_read {s b rest} h := by
    obtain ⟨⟨a, r⟩, ha, h⟩ := Option.map_eq_some_iff.mp h
    cases h
    rw [e.symm_apply_apply]
    exact A.write_read ha

/-- So many bytes. -/
def raw (n : Nat) : Format Bytes where
  Fits q := q.length = n
  write q := q
  read s := takeBytes n s
  read_write {_} hq _ := takeBytes_eq_some.mpr ⟨rfl, hq⟩
  write_read h := (takeBytes_eq_some.mp h).symm

/-- A form behind its measure in k bytes. -/
def measured (k : Nat) (size : α → Nat) (B : Nat → Format α) (hB : ∀ n a, (B n).Fits a → size a = n) : Format α where
  Fits a := size a < 256 ^ k ∧ (B (size a)).Fits a
  write a := beBytes k (size a) ++ (B (size a)).write a
  read s := (((word k).dep B).read s).map fun f => (f.1.2, f.2)
  read_write {a} ha rest := by
    have hread := ((word k).dep B).read_write (a := (size a, a)) ha rest
    rw [Option.map_eq_some_iff]
    exact ⟨_, hread, rfl⟩
  write_read {s a rest} h := by
    obtain ⟨⟨⟨n, b⟩, r⟩, hread, h⟩ := Option.map_eq_some_iff.mp h
    cases h
    obtain ⟨⟨hlt, hfits⟩, hs⟩ := ((word k).dep B).write_read hread
    obtain rfl := hB n b hfits
    exact ⟨⟨hlt, hfits⟩, hs⟩

/-- Bytes behind their number in k bytes. -/
def sized (k : Nat) : Format Bytes := measured k List.length raw fun _ _ h => h

@[simp] theorem sized_fits {k : Nat} {q : Bytes} : (sized k).Fits q ↔ q.length < 256 ^ k := and_iff_left rfl

/-- A form that fills a field behind its size in k bytes. -/
def within (k : Nat) (A : Format α) : Format α where
  Fits a := A.Fits a ∧ (A.write a).length < 256 ^ k
  write a := (sized k).write (A.write a)
  read s := ((sized k).read s).bind fun f => (A.whole f.1).map fun a => (a, f.2)
  read_write {a} ha rest := by
    rw [(sized k).read_write ⟨ha.2, rfl⟩, Option.bind_some, A.whole_eq_some.mpr ⟨ha.1, rfl⟩, Option.map_some]
  write_read {s a rest} h := by
    obtain ⟨⟨q, r⟩, hq, h⟩ := Option.bind_eq_some_iff.mp h
    obtain ⟨b, hb, h⟩ := Option.map_eq_some_iff.mp h
    cases h
    obtain ⟨⟨hlt, -⟩, rfl⟩ := (sized k).write_read hq
    obtain ⟨hfits, rfl⟩ := A.whole_eq_some.mp hb
    exact ⟨⟨hfits, hlt⟩, rfl⟩

/-- No bytes, for one value. -/
def constant (b : β) (isB : β → Bool) (hb : ∀ c, isB c = true ↔ c = b) : Format β :=
  (literal []).prism (fun _ => b) (fun c => if isB c then some () else none) fun _ c => by simp [hb]

@[simp] theorem constant_fits {b c : β} {isB : β → Bool} {hb : ∀ c, isB c = true ↔ c = b} :
    (constant b isB hb).Fits c ↔ c = b := by
  constructor
  · rintro ⟨u, hu, -⟩
    exact (hb c).mp (Option.ite_none_right_eq_some.mp hu).1
  · intro hc
    exact ⟨(), if_pos ((hb c).mpr hc), trivial⟩

def absent : Format (Option α) := constant none Option.isNone fun _ => Option.isNone_iff_eq_none

def present (A : Format α) : Format (Option α) := A.prism some id fun _ _ => Iff.rfl

/-- So many forms. -/
def repeated (A : Format α) : Nat → Format (List α)
  | 0 => constant [] List.isEmpty fun _ => List.isEmpty_iff
  | n + 1 => (A.pair (repeated A n)).prism (fun p => p.1 :: p.2) (fun as => as.head?.map fun a => (a, as.tail))
      fun p as => by
        cases as with
        | nil => simp
        | cons a as => simp [Prod.ext_iff]

theorem repeated_fits (A : Format α) (n : Nat) {as : List α} :
    (repeated A n).Fits as ↔ as.length = n ∧ ∀ a ∈ as, A.Fits a := by
  induction n generalizing as with
  | zero =>
    rw [repeated, constant_fits]
    constructor
    · rintro rfl
      simp
    · exact fun h => List.length_eq_zero_iff.mp h.1
  | succ n ih =>
    cases as with
    | nil =>
      refine iff_of_false (fun h => ?_) fun h => by simp at h
      obtain ⟨_, hcons, -⟩ := h
      cases hcons
    | cons a as =>
      rw [repeated, prism_fits (a := (a, as)) rfl, List.length_cons, Nat.add_left_inj, List.forall_mem_cons]
      constructor
      · rintro ⟨ha, has⟩
        exact ⟨(ih.mp has).1, ha, (ih.mp has).2⟩
      · rintro ⟨hlen, ha, has⟩
        exact ⟨ha, ih.mpr ⟨hlen, has⟩⟩

/-- Forms behind their number in k bytes. -/
def counted (k : Nat) (A : Format α) : Format (List α) := measured k List.length (repeated A) fun n _ h => ((A.repeated_fits n).mp h).1

end Fields
end Format
end RootHerald.Lib
