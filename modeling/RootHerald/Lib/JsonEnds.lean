import Mathlib.Data.List.TakeWhile
import RootHerald.Lib.Json

/-! What a reader leaves is a suffix of its text, so an object ends with its brace. -/
namespace RootHerald.Lib.Json
variable {α : Type}

/-- The rest is what stands behind the part that was read. -/
def Consumes (read : Bytes → Option (α × Bytes)) : Prop := ∀ src v rest, read src = some (v, rest) → rest <:+ src

theorem skip_suffix (src : Bytes) : skip src <:+ src := List.dropWhile_suffix _

section Scalars

private theorem digits_suffix {src rest : Bytes} (h : digits src = some rest) : rest <:+ src := by
  cases src with
  | nil => cases h
  | cons c src =>
    obtain ⟨-, h⟩ := Option.ite_none_right_eq_some.mp h
    obtain rfl := Option.some.inj h
    exact (List.dropWhile_suffix _).trans (List.suffix_cons c src)

private theorem integer_suffix {src rest : Bytes} (h : integer src = some rest) : rest <:+ src := by
  cases src with
  | nil => cases h
  | cons c src =>
    rw [integer] at h
    split_ifs at h with hzero
    · obtain rfl := Option.some.inj h
      exact List.suffix_cons c _
    · exact digits_suffix h

private theorem fraction_suffix {src rest : Bytes} (h : fraction src = some rest) : rest <:+ src := by
  unfold fraction at h
  split at h
  · exact (digits_suffix h).trans (List.suffix_cons _ _)
  · obtain rfl := Option.some.inj h
    exact List.suffix_refl _

private theorem unsignedExponent_suffix {src rest : Bytes} (h : unsignedExponent src = some rest) : rest <:+ src := by
  unfold unsignedExponent at h
  split at h
  · exact (digits_suffix h).trans (List.suffix_cons _ _)
  · exact (digits_suffix h).trans (List.suffix_cons _ _)
  · exact digits_suffix h

private theorem exponent_suffix {src rest : Bytes} (h : exponent src = some rest) : rest <:+ src := by
  unfold exponent at h
  split at h
  · exact (unsignedExponent_suffix h).trans (List.suffix_cons _ _)
  · exact (unsignedExponent_suffix h).trans (List.suffix_cons _ _)
  · obtain rfl := Option.some.inj h
    exact List.suffix_refl _

private theorem unsigned_suffix (src : Bytes) : unsigned src <:+ src := by
  unfold unsigned
  split
  · exact List.suffix_cons _ _
  · exact List.suffix_refl _

private theorem readNumber_consumes : Consumes readNumber := by
  intro src v rest h
  obtain ⟨rest', hread, heq⟩ := Option.map_eq_some_iff.mp h
  obtain ⟨-, rfl⟩ := Prod.mk.inj heq
  obtain ⟨src₂, hread, hexponent⟩ := Option.bind_eq_some_iff.mp hread
  obtain ⟨src₁, hinteger, hfraction⟩ := Option.bind_eq_some_iff.mp hread
  exact (exponent_suffix hexponent).trans <| (fraction_suffix hfraction).trans <|
    (integer_suffix hinteger).trans (unsigned_suffix src)

private theorem readLiteral_consumes (word : Bytes) (v : Json) : Consumes (readLiteral word v) := by
  intro src v' rest h
  obtain ⟨-, h⟩ := Option.ite_none_right_eq_some.mp h
  obtain ⟨-, rfl⟩ := Prod.mk.inj (Option.some.inj h)
  exact List.drop_suffix _ _

theorem readScalar_consumes : Consumes readScalar := by
  intro src v rest h
  simp only [readScalar, Option.orElse_eq_orElse, Option.orElse_eq_or, Option.or_eq_some_iff] at h
  rcases h with h | ⟨-, h | ⟨-, h | ⟨-, h⟩⟩⟩
  · exact readLiteral_consumes _ _ _ _ _ h
  · exact readLiteral_consumes _ _ _ _ _ h
  · exact readLiteral_consumes _ _ _ _ _ h
  · exact readNumber_consumes _ _ _ h

end Scalars

section Strings

private theorem map_suffix {f : Bytes → Bytes} {x : Option (Bytes × Bytes)} {src v rest : Bytes}
    (hx : ∀ v rest, x = some (v, rest) → rest <:+ src) (h : x.map (Prod.map f id) = some (v, rest)) : rest <:+ src := by
  obtain ⟨⟨v', rest'⟩, hread, heq⟩ := Option.map_eq_some_iff.mp h
  obtain ⟨-, rfl⟩ := Prod.mk.inj heq
  exact hx v' _ hread

private theorem suffix_cons_of_suffix {src rest : Bytes} (c : UInt8) (h : rest <:+ src) : rest <:+ c :: src :=
  h.trans (List.suffix_cons c src)

theorem readString_consumes (s : Utf8.State) : Consumes (readString s) := by
  intro src
  fun_induction readString s src with
  | case1 => exact fun _ _ h => by cases h
  | case2 s c src hmark =>
    intro v rest h
    obtain ⟨-, rfl⟩ := Prod.mk.inj (Option.some.inj h)
    exact List.suffix_cons c src
  | case3 s c _ _ h₁ h₂ h₃ h₄ src ihPair ih =>
    intro v rest h
    have htail : rest <:+ src → rest <:+ c :: 0x75 :: h₁ :: h₂ :: h₃ :: h₄ :: src := fun h =>
      h.trans (List.suffix_append [c, 0x75, h₁, h₂, h₃, h₄] src)
    obtain ⟨u, -, hunit⟩ := Option.bind_eq_some_iff.mp h
    clear h
    split_ifs at hunit with hhigh hlow
    · split at hunit
      · rename_i l₁ l₂ l₃ l₄ src
        obtain ⟨l, -, hlow⟩ := Option.bind_eq_some_iff.mp hunit
        obtain ⟨-, hread⟩ := Option.ite_none_right_eq_some.mp hlow
        exact htail ((map_suffix ihPair hread).trans (List.suffix_append [0x5C, 0x75, l₁, l₂, l₃, l₄] src))
      · cases hunit
    · exact htail (map_suffix ih hunit)
  | case4 s c _ _ e src _ ih =>
    intro v rest h
    obtain ⟨e', -, h⟩ := Option.bind_eq_some_iff.mp h
    exact suffix_cons_of_suffix c (suffix_cons_of_suffix e (map_suffix ih h))
  | case5 => exact fun _ _ h => by cases h
  | case6 => exact fun _ _ h => by cases h
  | case7 s c src _ _ _ ih =>
    intro v rest h
    obtain ⟨s', -, h⟩ := Option.bind_eq_some_iff.mp h
    exact suffix_cons_of_suffix c (map_suffix (ih s') h)

end Strings
section Lists
variable {item : Bytes → Option (α × Bytes)} {close : UInt8}

/-- Items up to the closing character are read with the character itself. -/
theorem readSeparated_ends (hitem : Consumes item) {n : Nat} {src rest : Bytes} {as : List α}
    (h : readSeparated item close n src = some (as, rest)) : close :: rest <:+ src := by
  induction n generalizing src as with
  | zero => cases h
  | succ n ih =>
    obtain ⟨⟨a, src'⟩, hread, h⟩ := Option.bind_eq_some_iff.mp h
    have hsrc : skip src' <:+ src := (skip_suffix src').trans (hitem _ _ _ hread)
    dsimp only at h
    split at h
    · cases h
    · rename_i c src'' hskip
      rw [hskip] at hsrc
      split_ifs at h with hclose hcomma
      · obtain ⟨-, rfl⟩ := Prod.mk.inj (Option.some.inj h)
        exact hclose ▸ hsrc
      · obtain ⟨⟨as', rest'⟩, hrest, heq⟩ := Option.map_eq_some_iff.mp h
        obtain ⟨-, rfl⟩ := Prod.mk.inj heq
        exact ((ih hrest).trans (List.suffix_cons c src'')).trans hsrc

theorem readList_ends (hitem : Consumes item) {src rest : Bytes} {as : List α}
    (h : readList item close src = some (as, rest)) : close :: rest <:+ src := by
  unfold readList at h
  split at h
  · cases h
  · rename_i c src' hskip
    split_ifs at h with hclose
    · obtain ⟨-, rfl⟩ := Prod.mk.inj (Option.some.inj h)
      have hsuffix := skip_suffix src
      rwa [hskip, hclose] at hsuffix
    · exact readSeparated_ends hitem h

end Lists

section Values

theorem readMember_consumes {value : Bytes → Option (Json × Bytes)} (hvalue : Consumes value) :
    Consumes (readMember value) := by
  intro src v rest h
  have hsrc := skip_suffix src
  unfold readMember at h
  split at h
  · cases h
  · rename_i c src' hskip
    rw [hskip] at hsrc
    obtain ⟨-, h⟩ := Option.ite_none_right_eq_some.mp h
    obtain ⟨⟨key, src''⟩, hkey, h⟩ := Option.bind_eq_some_iff.mp h
    have hsuffix : src'' <:+ src :=
      ((readString_consumes _ _ _ _ hkey).trans (List.suffix_cons c src')).trans hsrc
    have hcolon := (skip_suffix src'').trans hsuffix
    dsimp only at h
    split at h
    · cases h
    · rename_i c' src₃ hskip'
      rw [hskip'] at hcolon
      obtain ⟨-, h⟩ := Option.ite_none_right_eq_some.mp h
      obtain ⟨⟨v', rest'⟩, hread, heq⟩ := Option.map_eq_some_iff.mp h
      obtain ⟨-, rfl⟩ := Prod.mk.inj heq
      exact ((hvalue _ _ _ hread).trans (List.suffix_cons c' src₃)).trans hcolon

private theorem map_consumes {β : Type} {f : α → β} {read : Bytes → Option (α × Bytes)} {src rest : Bytes} {v : β}
    (hread : Consumes read) (h : (read src).map (Prod.map f id) = some (v, rest)) : rest <:+ src := by
  obtain ⟨⟨v', rest'⟩, hread', heq⟩ := Option.map_eq_some_iff.mp h
  obtain ⟨-, rfl⟩ := Prod.mk.inj heq
  exact hread _ _ _ hread'

theorem readValue_consumes (depth : Nat) : Consumes (readValue depth) := by
  induction depth with
  | zero => exact fun _ _ _ h => by cases h
  | succ depth ih =>
    intro src v rest h
    have hsrc := skip_suffix src
    have hlist : ∀ {β : Type} {item : Bytes → Option (β × Bytes)} {close : UInt8}, Consumes item →
        Consumes (readList item close) := fun hitem src v rest h =>
      (List.suffix_cons _ rest).trans (readList_ends hitem h)
    unfold readValue at h
    split at h
    · cases h
    · rename_i c src' hskip
      rw [hskip] at hsrc
      have htail : rest <:+ src' → rest <:+ src := fun h => (h.trans (List.suffix_cons c src')).trans hsrc
      split_ifs at h
      · exact htail (map_consumes (readString_consumes _) h)
      · exact htail (map_consumes (hlist ih) h)
      · exact htail (map_consumes (hlist (readMember_consumes ih)) h)
      · exact (readScalar_consumes _ _ _ h).trans hsrc

private theorem readScalar_ne_object (src rest : Bytes) (members : List (Bytes × Json)) :
    readScalar src ≠ some (.object members, rest) := by
  intro h
  simp only [readScalar, Option.orElse_eq_orElse, Option.orElse_eq_or, Option.or_eq_some_iff, readLiteral] at h
  rcases h with h | ⟨-, h | ⟨-, h | ⟨-, h⟩⟩⟩
  · obtain ⟨-, h⟩ := Option.ite_none_right_eq_some.mp h
    cases h
  · obtain ⟨-, h⟩ := Option.ite_none_right_eq_some.mp h
    cases h
  · obtain ⟨-, h⟩ := Option.ite_none_right_eq_some.mp h
    cases h
  · obtain ⟨_, -, h⟩ := Option.map_eq_some_iff.mp h
    cases h

/-- An object is read with its brace. -/
theorem readValue_object_ends {depth : Nat} {src rest : Bytes} {members : List (Bytes × Json)}
    (h : readValue depth src = some (.object members, rest)) : closeBrace :: rest <:+ src := by
  cases depth with
  | zero => cases h
  | succ depth =>
    have hsrc := skip_suffix src
    unfold readValue at h
    split at h
    · cases h
    · rename_i c src' hskip
      rw [hskip] at hsrc
      split_ifs at h
      · obtain ⟨_, -, h⟩ := Option.map_eq_some_iff.mp h
        cases h
      · obtain ⟨_, -, h⟩ := Option.map_eq_some_iff.mp h
        cases h
      · obtain ⟨⟨members', rest'⟩, hread, heq⟩ := Option.map_eq_some_iff.mp h
        obtain ⟨-, rfl⟩ := Prod.mk.inj heq
        have hends := readList_ends (readMember_consumes (readValue_consumes depth)) hread
        exact (hends.trans (List.suffix_cons c src')).trans hsrc
      · exact absurd h (readScalar_ne_object _ _ _)

/-- The last character of an object's text that is no white space is its brace. -/
theorem parse_object_getLast {t : Bytes} {c : UInt8} {members : List (Bytes × Json)}
    (h : parse (t ++ [c]) = some (.object members)) (hc : isWhitespace c = false) : c = closeBrace := by
  obtain ⟨⟨v, rest⟩, hread, hend⟩ := Option.bind_eq_some_iff.mp h
  obtain ⟨hskip, hv⟩ := Option.ite_none_right_eq_some.mp hend
  obtain rfl := Option.some.inj hv
  obtain ⟨front, hfront⟩ := readValue_object_ends hread
  rcases List.eq_nil_or_concat rest with rfl | ⟨rest', c', rfl⟩
  · exact (List.cons.inj (List.append_inj' hfront rfl).2).1.symm
  · rw [List.concat_eq_append] at hskip hfront
    rw [← List.cons_append, ← List.append_assoc] at hfront
    obtain rfl := (List.cons.inj (List.append_inj' hfront rfl).2).1
    have hmem : ∀ b ∈ rest' ++ [c'], isWhitespace b = true := List.dropWhile_eq_nil_iff.mp hskip
    rw [hmem c' (List.mem_append_right _ (List.mem_singleton_self c'))] at hc
    cases hc

end Values
end RootHerald.Lib.Json
