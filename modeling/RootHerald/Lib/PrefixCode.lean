import Mathlib.Data.List.Basic

/-! Self-delimiting codes and the longest sequence of code words a string starts with. -/
namespace RootHerald.Lib

/-- A reader that undoes its writer in front of any rest and accepts nothing else. -/
structure PrefixCode (α β : Type) where
  write : α → List β
  read : List β → Option (α × List β)
  read_write : ∀ a rest, read (write a ++ rest) = some (a, rest)
  write_read : ∀ s a rest, read s = some (a, rest) → s = write a ++ rest
  write_ne : ∀ a, write a ≠ []

namespace PrefixCode
variable {α β : Type} (C : PrefixCode α β)

theorem read_shorter {s : List β} {a : α} {rest : List β} (h : C.read s = some (a, rest)) :
    rest.length < s.length := by
  have hs := congrArg List.length (C.write_read s a rest h)
  have hw := List.length_pos_iff.mpr (C.write_ne a)
  rw [List.length_append] at hs
  omega

/-- Read code words while one can be read; the rest is what the last read left. -/
def readAll (s : List β) : List α × List β :=
  match h : C.read s with
  | none => ([], s)
  | some (a, rest) =>
    have := C.read_shorter h
    let tail := readAll rest
    (a :: tail.1, tail.2)
termination_by s.length

def writeAll (as : List α) : List β := as.flatMap C.write

@[simp] theorem writeAll_nil : C.writeAll [] = [] := rfl

@[simp] theorem writeAll_cons (a : α) (as : List α) : C.writeAll (a :: as) = C.write a ++ C.writeAll as := rfl

theorem readAll_none {s : List β} (h : C.read s = none) : C.readAll s = ([], s) := by
  rw [readAll]
  split
  · rfl
  · rename_i hs
    simp [h] at hs

theorem readAll_some {s : List β} {a : α} {rest : List β} (h : C.read s = some (a, rest)) :
    C.readAll s = (a :: (C.readAll rest).1, (C.readAll rest).2) := by
  rw [readAll]
  split
  · rename_i hs
    simp [h] at hs
  · rename_i hs
    rw [h] at hs
    cases hs
    rfl

/-- Strong induction on what a reader leaves. -/
theorem readAll_induction {motive : List β → Prop}
    (stop : ∀ s, C.read s = none → motive s)
    (step : ∀ s a rest, C.read s = some (a, rest) → motive rest → motive s) (s : List β) : motive s := by
  induction hn : s.length using Nat.strongRecOn generalizing s with
  | ind n ih =>
    cases h : C.read s with
    | none => exact stop s h
    | some p =>
      have hlt := C.read_shorter h
      exact step s p.1 p.2 h (ih _ (hn ▸ hlt) p.2 rfl)

/-- What was read, written back, in front of what was left. -/
theorem writeAll_readAll (s : List β) : s = C.writeAll (C.readAll s).1 ++ (C.readAll s).2 := by
  induction s using C.readAll_induction with
  | stop s h => simp [C.readAll_none h]
  | step s a rest h ih =>
    rw [C.readAll_some h, writeAll_cons, List.append_assoc, ← ih]
    exact C.write_read s a rest h

/-- No code word starts what was left. -/
theorem read_leftover (s : List β) : C.read (C.readAll s).2 = none := by
  induction s using C.readAll_induction with
  | stop s h => rwa [C.readAll_none h]
  | step s a rest h ih => rwa [C.readAll_some h]

theorem readAll_write (a : α) (rest : List β) :
    C.readAll (C.write a ++ rest) = (a :: (C.readAll rest).1, (C.readAll rest).2) :=
  C.readAll_some (C.read_write a rest)

theorem readAll_writeAll (as : List α) (rest : List β) :
    C.readAll (C.writeAll as ++ rest) = (as ++ (C.readAll rest).1, (C.readAll rest).2) := by
  induction as with
  | nil => simp
  | cons a as ih => rw [writeAll_cons, List.append_assoc, readAll_write, ih, List.cons_append]

/-- Every sequence of code words that starts the string is a prefix of the one read. -/
theorem prefix_readAll {s rest : List β} {as : List α} (h : s = C.writeAll as ++ rest) :
    as <+: (C.readAll s).1 := by
  rw [h, readAll_writeAll]
  exact List.prefix_append _ _

theorem readAll_eq {s rest : List β} {as : List α} (h : s = C.writeAll as ++ rest) (hr : C.read rest = none) :
    C.readAll s = (as, rest) := by
  rw [h, readAll_writeAll, C.readAll_none hr, List.append_nil]

/-- The words of a string are the longest sequence it starts with. -/
def IsLongest (s : List β) (as : List α) : Prop :=
  (∃ rest, s = C.writeAll as ++ rest) ∧ ∀ bs rest, s = C.writeAll bs ++ rest → bs <+: as

theorem readAll_isLongest (s : List β) : C.IsLongest s (C.readAll s).1 :=
  ⟨⟨_, C.writeAll_readAll s⟩, fun _ _ h => C.prefix_readAll h⟩

end PrefixCode
end RootHerald.Lib
