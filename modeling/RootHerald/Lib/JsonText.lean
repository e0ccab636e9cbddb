import RootHerald.Lib.Json

/-! Texts put together from the texts of their parts, and when a reader gets the intended value
back. -/
namespace RootHerald.Lib.Json

/-- In front of any rest, t is read as v and the rest is left, exactly if P. -/
structure Exact {α : Type} (read : Bytes → Option (α × Bytes)) (t : Bytes) (v : α) (P : Prop) : Prop where
  reads : P → ∀ rest, read (t ++ rest) = some (v, rest)
  misreads : ¬ P → ∀ rest rest', read (t ++ rest) ≠ some (v, rest')

theorem Exact.congr {α : Type} {read : Bytes → Option (α × Bytes)} {t : Bytes} {v : α} {P Q : Prop} (h : Exact read t v P)
    (hPQ : P ↔ Q) : Exact read t v Q :=
  propext hPQ ▸ h

theorem skip_cons {c : UInt8} {rest : Bytes} (h : isWhitespace c = false) : skip (c :: rest) = c :: rest :=
  List.dropWhile_cons_of_neg (by simp [h])

section Strings
variable {s : Utf8.State} {c : UInt8} {rest : Bytes}

private theorem readString_unescaped (h : c ≠ reverseSolidus) :
    readString s (c :: rest) =
      if s = .start ∧ c = quotationMark then some ([], rest)
      else if s = .start ∧ c < 0x20 then none
      else (Utf8.next s c).bind fun s => (readString s rest).map (Prod.map (c :: ·) id) := by
  rw [readString.eq_def]
  dsimp only
  rw [if_neg (c := s = .start ∧ c = reverseSolidus) fun hc => h hc.2]

theorem readString_mark (rest : Bytes) : readString .start (quotationMark :: rest) = some ([], rest) := by
  rw [readString_unescaped (by decide), if_pos ⟨rfl, rfl⟩]

theorem readString_escape {e e' : UInt8} (hu : e ≠ 0x75) (he : unescape e = some e') :
    readString .start (reverseSolidus :: e :: rest) = (readString .start rest).map (Prod.map (e' :: ·) id) := by
  rw [readString, if_neg (by decide), if_pos ⟨rfl, rfl⟩, he, Option.bind_some]
  exact fun _ _ _ _ _ h => absurd h hu

theorem readString_raw (hquote : c ≠ quotationMark) (hsolidus : c ≠ reverseSolidus) (hcontrol : 0x20 ≤ c) :
    readString s (c :: rest) = (Utf8.next s c).bind fun s => (readString s rest).map (Prod.map (c :: ·) id) := by
  rw [readString_unescaped hsolidus, if_neg fun h => hquote h.2, if_neg fun h => absurd h.2 (UInt8.not_lt.mpr hcontrol)]

theorem readString_tail_ascii {least acc more : Nat} (h : c < 0x80) :
    readString (.tail least acc more) (c :: rest) = none := by
  rw [readString.eq_def]
  dsimp only
  rw [if_neg (by simp), if_neg (by simp), if_neg (by simp), Utf8.next_tail_ascii h, Option.bind_none]

theorem readString_control (h : c < 0x20) : readString s (c :: rest) = none := by
  cases s with
  | tail least acc more => exact readString_tail_ascii (UInt8.lt_trans h (by decide))
  | start =>
    have hquote : c ≠ quotationMark := fun hc => absurd (hc ▸ h) (by decide)
    have hsolidus : c ≠ reverseSolidus := fun hc => absurd (hc ▸ h) (by decide)
    rw [readString_unescaped hsolidus, if_neg fun h => hquote h.2, if_pos ⟨rfl, h⟩]

/-- An escaped ASCII character counts as the character itself, also inside a sequence it breaks. -/
theorem readString_escaped {e : UInt8} (hu : e ≠ 0x75) (he : unescape e = some c) (hc : c < 0x80) :
    readString s (reverseSolidus :: e :: rest) =
      (Utf8.next s c).bind fun s => (readString s rest).map (Prod.map (c :: ·) id) := by
  cases s with
  | start => rw [readString_escape hu he, Utf8.next_start_ascii hc, Option.bind_some]
  | tail least acc more => rw [readString_tail_ascii (by decide), Utf8.next_tail_ascii hc, Option.bind_none]

/-- A character that stands for itself. -/
def isPlain (c : UInt8) : Bool := 0x20 ≤ c && c < 0x80 && c ≠ quotationMark && c ≠ reverseSolidus

theorem readString_plain {t : Bytes} (h : ∀ c ∈ t, isPlain c) (rest : Bytes) :
    readString .start (t ++ quotationMark :: rest) = some (t, rest) := by
  induction t with
  | nil => exact readString_mark rest
  | cons c t ih =>
    obtain ⟨hc, ht⟩ := List.forall_mem_cons.mp h
    simp only [isPlain, Bool.and_eq_true, decide_eq_true_eq] at hc
    rw [List.cons_append, readString_raw hc.1.2 hc.2 hc.1.1.1, Utf8.next_start_ascii hc.1.1.2, Option.bind_some, ih ht]
    rfl

end Strings

section Lists
variable {ι α : Type} {item : Bytes → Option (α × Bytes)} {close : UInt8} {n : Nat} {text : ι → Bytes} {val : ι → α}
  {P : ι → Prop}

/-- Texts between commas. -/
def commaSeparated (ts : List Bytes) : Bytes := [comma].intercalate ts

theorem commaSeparated_singleton (t : Bytes) : commaSeparated [t] = t := by
  simp [commaSeparated]

theorem commaSeparated_cons_cons (t t' : Bytes) (ts : List Bytes) :
    commaSeparated (t :: t' :: ts) = t ++ comma :: commaSeparated (t' :: ts) := by
  simp [commaSeparated, List.intercalate, List.intersperse]

theorem commaSeparated_cons (t : Bytes) (ts : List Bytes) :
    commaSeparated (t :: ts) = t ++ ts.flatMap (comma :: ·) := by
  induction ts generalizing t with
  | nil => rw [commaSeparated_singleton, List.flatMap_nil, List.append_nil]
  | cons t' ts ih => rw [commaSeparated_cons_cons, ih, List.flatMap_cons, List.cons_append]

theorem length_le_commaSeparated (ts : List Bytes) : ts.length ≤ (commaSeparated ts).length + 1 := by
  induction ts with
  | nil => exact Nat.zero_le _
  | cons t ts ih =>
    cases ts with
    | nil => exact Nat.le_add_left 1 _
    | cons t' ts =>
      rw [commaSeparated_cons_cons]
      simp only [List.length_append, List.length_cons] at ih ⊢
      omega

private theorem length_le_of_mem {t : Bytes} {ts : List Bytes} (h : t ∈ ts) : t.length ≤ (commaSeparated ts).length := by
  induction ts with
  | nil => cases h
  | cons t' ts ih =>
    cases ts with
    | nil => rw [List.mem_singleton.mp h, commaSeparated_singleton]
    | cons t'' ts =>
      rw [commaSeparated_cons_cons, List.length_append, List.length_cons]
      rcases List.mem_cons.mp h with rfl | h
      · omega
      · have hle := ih h
        omega

/-- The first item is the first of the list read. -/
private theorem readSeparated_head {src rest : Bytes} {a : α} {as : List α}
    (h : readSeparated item close (n + 1) src = some (a :: as, rest)) : ∃ rest', item src = some (a, rest') := by
  obtain ⟨⟨a', rest'⟩, hitem, h⟩ := Option.bind_eq_some_iff.mp h
  refine ⟨rest', ?_⟩
  dsimp only at h
  split at h
  · cases h
  split_ifs at h
  · obtain ⟨⟨rfl, -⟩, -⟩ := by simpa using h
    exact hitem
  · obtain ⟨⟨as', r⟩, -, h⟩ := Option.map_eq_some_iff.mp h
    obtain ⟨⟨rfl, -⟩, -⟩ := by simpa using h
    exact hitem

theorem readSeparated_last (hws : isWhitespace close = false) {t : Bytes} {a : α} {rest : Bytes}
    (h : item (t ++ close :: rest) = some (a, close :: rest)) :
    readSeparated item close (n + 1) (t ++ close :: rest) = some ([a], rest) := by
  rw [readSeparated, h, Option.bind_some]
  dsimp only
  rw [skip_cons hws]
  exact if_pos rfl

theorem readSeparated_comma (hclose : close ≠ comma) {t : Bytes} {a : α} {rest : Bytes}
    (h : item (t ++ comma :: rest) = some (a, comma :: rest)) :
    readSeparated item close (n + 1) (t ++ comma :: rest) =
      (readSeparated item close n rest).map (Prod.map (a :: ·) id) := by
  rw [readSeparated, h, Option.bind_some]
  dsimp only
  rw [skip_cons (by decide)]
  exact (if_neg hclose.symm).trans (if_pos rfl)

theorem readSeparated_exact (hclose : close ≠ comma) (hws : isWhitespace close = false) {is : List ι} (hne : is ≠ [])
    (h : ∀ i ∈ is, Exact item (text i) (val i) (P i)) (hn : is.length ≤ n) :
    Exact (readSeparated item close n) (commaSeparated (is.map text) ++ [close]) (is.map val) (∀ i ∈ is, P i) := by
  induction is generalizing n with
  | nil => exact absurd rfl hne
  | cons i is ih =>
    obtain ⟨n, rfl⟩ : ∃ m, n = m + 1 := ⟨n - 1, by simp at hn; omega⟩
    obtain ⟨hi, his⟩ := List.forall_mem_cons.mp h
    cases is with
    | nil =>
      simp only [List.map_cons, List.map_nil, commaSeparated_singleton, List.mem_singleton, forall_eq]
      constructor
      · intro hP rest
        rw [List.append_assoc]
        exact readSeparated_last hws (hi.reads hP _)
      · intro hP rest rest' heq
        rw [List.append_assoc] at heq
        obtain ⟨rest'', hitem⟩ := readSeparated_head heq
        exact hi.misreads hP _ _ hitem
    | cons i' is =>
      have htail := ih (by simp) his (Nat.le_of_succ_le_succ hn)
      simp only [List.map_cons, commaSeparated_cons_cons, List.append_assoc, List.cons_append] at htail ⊢
      constructor
      · intro hP rest
        obtain ⟨hPi, hPis⟩ := List.forall_mem_cons.mp hP
        have hrest := htail.reads hPis rest
        simp only [List.append_assoc, List.cons_append] at hrest ⊢
        rw [readSeparated_comma hclose (hi.reads hPi _), hrest]
        rfl
      · intro hP rest rest' heq
        simp only [List.append_assoc, List.cons_append] at heq
        by_cases hPi : P i
        · have hPis : ¬ ∀ i ∈ i' :: is, P i := fun hPis => hP (List.forall_mem_cons.mpr ⟨hPi, hPis⟩)
          rw [readSeparated_comma hclose (hi.reads hPi _)] at heq
          obtain ⟨⟨as, rest''⟩, hsep, heq⟩ := Option.map_eq_some_iff.mp heq
          obtain ⟨⟨-, rfl⟩, -⟩ := by simpa using heq
          apply htail.misreads hPis rest rest''
          simpa only [List.append_assoc, List.cons_append] using hsep
        · obtain ⟨rest'', hitem⟩ := readSeparated_head heq
          exact hi.misreads hPi _ _ hitem

/-- A list is not empty whose first character is not the closing one. -/
theorem readList_cons {c : UInt8} {src : Bytes} (hc : isWhitespace c = false) (hne : c ≠ close) :
    readList item close (c :: src) = readSeparated item close (c :: src).length (c :: src) := by
  rw [readList, skip_cons hc]
  exact if_neg hne

/-- Texts between commas and in front of a closing character, as a list. -/
theorem readList_exact (hclose : close ≠ comma) (hws : isWhitespace close = false) {is : List ι}
    (hstart : ∀ i ∈ is, ∃ c t, text i = c :: t ∧ isWhitespace c = false ∧ c ≠ close)
    (h : ∀ i ∈ is, Exact item (text i) (val i) (P i)) :
    Exact (readList item close) (commaSeparated (is.map text) ++ [close]) (is.map val) (∀ i ∈ is, P i) := by
  cases is with
  | nil =>
    have hread : ∀ rest, readList item close (close :: rest) = some ([], rest) := by
      intro rest
      rw [readList, skip_cons hws]
      exact if_pos rfl
    exact ⟨fun _ => hread, fun hP => absurd (List.forall_mem_nil _) hP⟩
  | cons i is =>
    obtain ⟨c, t, htext, hc, hne⟩ := hstart i List.mem_cons_self
    obtain ⟨tail, htail⟩ : ∃ tail, commaSeparated ((i :: is).map text) ++ [close] = c :: tail := by
      cases is with
      | nil => exact ⟨_, by rw [List.map_cons, List.map_nil, commaSeparated_singleton, htext]; rfl⟩
      | cons i' is => exact ⟨_, by rw [List.map_cons, List.map_cons, commaSeparated_cons_cons, htext]; rfl⟩
    have hread : ∀ rest, readList item close ((commaSeparated ((i :: is).map text) ++ [close]) ++ rest) =
        readSeparated item close ((commaSeparated ((i :: is).map text) ++ [close]) ++ rest).length
          ((commaSeparated ((i :: is).map text) ++ [close]) ++ rest) := by
      intro rest
      rw [htail, List.cons_append, readList_cons hc hne]
    have hlength (rest : Bytes) : (i :: is).length ≤ ((commaSeparated ((i :: is).map text) ++ [close]) ++ rest).length := by
      have hle := length_le_commaSeparated ((i :: is).map text)
      simp only [List.length_map, List.length_append, List.length_cons, List.length_nil] at hle ⊢
      omega
    constructor
    · intro hP rest
      rw [hread]
      exact (readSeparated_exact hclose hws (by simp) h (hlength rest)).reads hP rest
    · intro hP rest rest'
      rw [hread]
      exact (readSeparated_exact hclose hws (by simp) h (hlength rest)).misreads hP rest rest'

end Lists

section Values
variable {ι : Type} {depth : Nat} {P : ι → Prop}

theorem Exact.map {α β : Type} {read : Bytes → Option (α × Bytes)} {t : Bytes} {v : α} {P : Prop} {f : α → β}
    (hf : Function.Injective f) (h : Exact read t v P) :
    Exact (fun src => (read src).map (Prod.map f id)) t (f v) P := by
  constructor
  · intro hP rest
    rw [h.reads hP rest]
    rfl
  · intro hP rest rest' heq
    obtain ⟨⟨v', rest''⟩, hread, heq⟩ := Option.map_eq_some_iff.mp heq
    obtain ⟨hv, rfl⟩ := Prod.mk.inj heq
    exact h.misreads hP rest rest'' (hf hv ▸ hread)

private theorem readLiteral_eq_some {word src rest : Bytes} {v v' : Json}
    (h : readLiteral word v src = some (v', rest)) : v' = v := by
  obtain ⟨-, h⟩ := Option.ite_none_right_eq_some.mp h
  exact (Prod.mk.inj (Option.some.inj h)).1.symm

theorem readScalar_ne_string (src v rest : Bytes) : readScalar src ≠ some (.string v, rest) := by
  intro h
  simp only [readScalar, Option.orElse_eq_orElse, Option.orElse_eq_or, Option.or_eq_some_iff] at h
  rcases h with h | ⟨-, h | ⟨-, h | ⟨-, h⟩⟩⟩
  · cases readLiteral_eq_some h
  · cases readLiteral_eq_some h
  · cases readLiteral_eq_some h
  · obtain ⟨_, -, h⟩ := Option.map_eq_some_iff.mp h
    cases h

/-- A reader that drops the first character. -/
theorem Exact.cons {α : Type} {read read' : Bytes → Option (α × Bytes)} {c : UInt8} {t : Bytes} {v : α} {P : Prop}
    (hread : ∀ src, read' (c :: src) = read src) (h : Exact read t v P) : Exact read' (c :: t) v P where
  reads hP rest := by rw [List.cons_append, hread, h.reads hP]
  misreads hP rest rest' := by
    rw [List.cons_append, hread]
    exact h.misreads hP rest rest'

/-- What a value is, from its first character. -/
private theorem readValue_cons {c : UInt8} (hc : isWhitespace c = false) (src : Bytes) :
    readValue (depth + 1) (c :: src) =
      if c = quotationMark then (readString .start src).map (Prod.map .string id)
      else if c = openBracket then (readList (readValue depth) closeBracket src).map (Prod.map .array id)
      else if c = openBrace then (readList (readMember (readValue depth)) closeBrace src).map (Prod.map .object id)
      else readScalar (c :: src) := by
  rw [readValue, skip_cons hc]

theorem readValue_string (src : Bytes) :
    readValue (depth + 1) (quotationMark :: src) = (readString .start src).map (Prod.map .string id) :=
  readValue_cons (by decide) src

theorem readValue_array (src : Bytes) : readValue (depth + 1) (openBracket :: src) =
    (readList (readValue depth) closeBracket src).map (Prod.map .array id) :=
  readValue_cons (by decide) src

theorem readValue_object (src : Bytes) : readValue (depth + 1) (openBrace :: src) =
    (readList (readMember (readValue depth)) closeBrace src).map (Prod.map .object id) :=
  readValue_cons (by decide) src

private theorem text_null : text "null" = [0x6E, 0x75, 0x6C, 0x6C] := by decide
private theorem text_true : text "true" = [0x74, 0x72, 0x75, 0x65] := by decide
private theorem text_false : text "false" = [0x66, 0x61, 0x6C, 0x73, 0x65] := by decide

theorem readValue_null (rest : Bytes) : readValue (depth + 1) (text "null" ++ rest) = some (.null, rest) := by
  rw [text_null, List.cons_append, readValue_cons (by decide)]
  simp [quotationMark, openBracket, openBrace, readScalar, readLiteral, text_null]

theorem readValue_true (rest : Bytes) : readValue (depth + 1) (text "true" ++ rest) = some (.bool true, rest) := by
  rw [text_true, List.cons_append, readValue_cons (by decide)]
  simp [quotationMark, openBracket, openBrace, readScalar, readLiteral, text_null, text_true]

theorem readValue_false (rest : Bytes) : readValue (depth + 1) (text "false" ++ rest) = some (.bool false, rest) := by
  rw [text_false, List.cons_append, readValue_cons (by decide)]
  simp [quotationMark, openBracket, openBrace, readScalar, readLiteral, text_null, text_true, text_false]

/-- A value read as a string starts with a quotation mark. -/
theorem readValue_eq_string {c : UInt8} {src v rest : Bytes} (hc : isWhitespace c = false)
    (h : readValue depth (c :: src) = some (.string v, rest)) : c = quotationMark := by
  cases depth with
  | zero => cases h
  | succ depth =>
    rw [readValue_cons hc] at h
    split_ifs at h with hquote harray hobject
    · exact hquote
    · obtain ⟨_, -, h⟩ := Option.map_eq_some_iff.mp h
      cases h
    · obtain ⟨_, -, h⟩ := Option.map_eq_some_iff.mp h
      cases h
    · exact absurd h (readScalar_ne_string _ _ _)

/-- The text of an array. -/
def arrayText (ts : List Bytes) : Bytes := openBracket :: (commaSeparated ts ++ [closeBracket])

/-- The text of a member whose name needs no escape. -/
def memberText (name t : Bytes) : Bytes := quotationMark :: (name ++ quotationMark :: colon :: t)

theorem memberText_length (name t : Bytes) : (memberText name t).length = name.length + t.length + 3 := by
  simp only [memberText, List.length_cons, List.length_append]
  omega

/-- The text of an object. -/
def objectText (ts : List Bytes) : Bytes := openBrace :: (commaSeparated ts ++ [closeBrace])

theorem array_exact {t : ι → Bytes} {v : ι → Json} {is : List ι}
    (hstart : ∀ i ∈ is, ∃ c rest, t i = c :: rest ∧ isWhitespace c = false ∧ c ≠ closeBracket)
    (h : ∀ i ∈ is, Exact (readValue depth) (t i) (v i) (P i)) :
    Exact (readValue (depth + 1)) (arrayText (is.map t)) (.array (is.map v)) (∀ i ∈ is, P i) :=
  .cons readValue_array (.map (fun _ _ => array.inj) (readList_exact (by decide) (by decide) hstart h))

/-- The name of a member is read, and the value behind it. -/
theorem readMember_memberText {read : Bytes → Option (Json × Bytes)} {name : Bytes} (hname : ∀ c ∈ name, isPlain c)
    (src : Bytes) : readMember read (memberText name src) = (read src).map (Prod.map (name, ·) id) := by
  rw [readMember, memberText, skip_cons (by decide)]
  refine (if_pos rfl).trans ?_
  rw [readString_plain hname, Option.bind_some]
  dsimp only
  rw [skip_cons (by decide)]
  exact if_pos rfl

theorem memberText_append (name t rest : Bytes) : memberText name t ++ rest = memberText name (t ++ rest) := by
  simp [memberText]

theorem readMember_exact {read : Bytes → Option (Json × Bytes)} {name t : Bytes} {v : Json} {P : Prop}
    (hname : ∀ c ∈ name, isPlain c) (h : Exact read t v P) :
    Exact (readMember read) (memberText name t) (name, v) P := by
  have hmap := h.map (f := (name, ·)) fun _ _ heq => (Prod.mk.inj heq).2
  constructor
  · intro hP rest
    rw [memberText_append, readMember_memberText hname]
    exact hmap.reads hP rest
  · intro hP rest rest'
    rw [memberText_append, readMember_memberText hname]
    exact hmap.misreads hP rest rest'

theorem object_exact {k t : ι → Bytes} {v : ι → Json} {is : List ι} (hname : ∀ i ∈ is, ∀ c ∈ k i, isPlain c)
    (h : ∀ i ∈ is, Exact (readValue depth) (t i) (v i) (P i)) :
    Exact (readValue (depth + 1)) (objectText (is.map fun i => memberText (k i) (t i)))
      (.object (is.map fun i => (k i, v i))) (∀ i ∈ is, P i) := by
  refine .cons readValue_object (.map (fun _ _ => object.inj) (readList_exact (by decide) (by decide) ?_ ?_))
  · exact fun i _ => ⟨_, _, rfl, by decide, by decide⟩
  · exact fun i hi => readMember_exact (hname i hi) (h i hi)

/-- An object with a member is longer than its brackets and the marks of the member. -/
theorem length_objectText {k t : Bytes} {ts : List Bytes} (h : memberText k t ∈ ts) :
    5 ≤ (objectText ts).length := by
  have hle := length_le_of_mem h
  simp only [memberText, objectText, List.length_cons, List.length_append, List.length_nil] at hle ⊢
  omega

/-- A text decodes to the intended value exactly if it is read as that value, to a depth below its length. -/
theorem parse_iff {n : Nat} {t : Bytes} {v : Json} {P : Prop} (hn : n ≤ t.length)
    (h : ∀ depth, Exact (readValue (depth + n)) t v P) : parse t = some v ↔ P := by
  have h : Exact (readValue t.length) t v P := Nat.sub_add_cancel hn ▸ h (t.length - n)
  constructor
  · intro hparse
    obtain ⟨⟨v', rest⟩, hread, hend⟩ := Option.bind_eq_some_iff.mp hparse
    obtain ⟨-, hv⟩ := Option.ite_none_right_eq_some.mp hend
    obtain rfl := Option.some.inj hv
    by_contra hP
    apply h.misreads hP [] rest
    rw [List.append_nil]
    exact hread
  · intro hP
    have hread := h.reads hP []
    rw [List.append_nil] at hread
    rw [parse, hread]
    rfl

end Values
end RootHerald.Lib.Json
