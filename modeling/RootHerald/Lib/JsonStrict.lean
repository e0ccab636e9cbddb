import RootHerald.Lib.JsonText

/-! Texts put together from the texts of their parts, when a part that is wrong spoils the whole. -/
namespace RootHerald.Lib.Json

/-- In front of any rest, t is read as v and the rest is left if P, and nothing is read otherwise. -/
structure Strict {α : Type} (read : Bytes → Option (α × Bytes)) (t : Bytes) (v : α) (P : Prop) : Prop where
  reads : P → ∀ rest, read (t ++ rest) = some (v, rest)
  refuses : ¬ P → ∀ rest, read (t ++ rest) = none

section Combine
variable {α β : Type} {read read' : Bytes → Option (α × Bytes)} {t : Bytes} {v : α} {P Q : Prop}

theorem Strict.congr (h : Strict read t v P) (hPQ : P ↔ Q) : Strict read t v Q := propext hPQ ▸ h

theorem Strict.map (f : α → β) (h : Strict read t v P) :
    Strict (fun src => (read src).map (Prod.map f id)) t (f v) P where
  reads hP rest := by
    rw [h.reads hP rest]
    rfl
  refuses hP rest := by
    rw [h.refuses hP rest]
    rfl

/-- A reader that drops the first character. -/
theorem Strict.cons {c : UInt8} (hread : ∀ src, read' (c :: src) = read src) (h : Strict read t v P) :
    Strict read' (c :: t) v P where
  reads hP rest := by rw [List.cons_append, hread, h.reads hP]
  refuses hP rest := by rw [List.cons_append, hread, h.refuses hP]

end Combine

section Lists
variable {ι α : Type} {item : Bytes → Option (α × Bytes)} {close : UInt8} {n : Nat} {t : Bytes} {v : α} {P : Prop}

theorem readSeparated_none {src : Bytes} (h : item src = none) : readSeparated item close (n + 1) src = none := by
  rw [readSeparated, h, Option.bind_none]

/-- What is read behind an item and a comma. -/
theorem readSeparated_comma_strict (hclose : close ≠ comma) (h : Strict item t v P) (src : Bytes) :
    (P → readSeparated item close (n + 1) (t ++ comma :: src) =
      (readSeparated item close n src).map (Prod.map (v :: ·) id)) ∧
    (¬ P → readSeparated item close (n + 1) (t ++ comma :: src) = none) :=
  ⟨fun hP => readSeparated_comma hclose (h.reads hP _), fun hP => readSeparated_none (h.refuses hP _)⟩

/-- Nothing is read when neither a comma nor the closing character follows an item. -/
theorem readSeparated_junk (h : Strict item t v P) {src : Bytes}
    (hsrc : ∀ c rest, skip src = c :: rest → c ≠ close ∧ c ≠ comma) :
    readSeparated item close (n + 1) (t ++ src) = none := by
  by_cases hP : P
  · rw [readSeparated, h.reads hP, Option.bind_some]
    dsimp only
    split
    · rfl
    · rename_i c rest heq
      obtain ⟨hne, hcomma⟩ := hsrc c rest heq
      rw [if_neg hne, if_neg hcomma]
  · exact readSeparated_none (h.refuses hP _)

/-- Nothing is read of a list that goes on with something no list goes on with. -/
theorem readSeparated_front_none (hclose : close ≠ comma) {text : ι → Bytes} {val : ι → α} {P : ι → Prop} {is : List ι}
    (h : ∀ i ∈ is, Strict item (text i) (val i) (P i)) {src : Bytes}
    (hsrc : ∀ n, readSeparated item close n src = none) :
    readSeparated item close n (is.flatMap (fun i => text i ++ [comma]) ++ src) = none := by
  induction is generalizing n with
  | nil => exact hsrc n
  | cons i is ih =>
    obtain ⟨hi, his⟩ := List.forall_mem_cons.mp h
    cases n with
    | zero => rfl
    | succ n =>
      rw [List.flatMap_cons, List.append_assoc, List.append_assoc, List.singleton_append]
      obtain ⟨hreads, hrefuses⟩ := readSeparated_comma_strict (n := n) hclose hi
        (is.flatMap (fun i => text i ++ [comma]) ++ src)
      by_cases hP : P i
      · rw [hreads hP, ih his]
        rfl
      · exact hrefuses hP

variable {text : ι → Bytes} {val : ι → α} {P : ι → Prop}

theorem readSeparated_strict (hclose : close ≠ comma) (hws : isWhitespace close = false) {is : List ι} (hne : is ≠ [])
    (h : ∀ i ∈ is, Strict item (text i) (val i) (P i)) (hn : is.length ≤ n) :
    Strict (readSeparated item close n) (commaSeparated (is.map text) ++ [close]) (is.map val) (∀ i ∈ is, P i) := by
  induction is generalizing n with
  | nil => exact absurd rfl hne
  | cons i is ih =>
    obtain ⟨n, rfl⟩ : ∃ m, n = m + 1 := ⟨n - 1, by simp at hn; omega⟩
    obtain ⟨hi, his⟩ := List.forall_mem_cons.mp h
    cases is with
    | nil =>
      simp only [List.map_cons, List.map_nil, commaSeparated_singleton, List.mem_singleton, forall_eq]
      constructor
      · intro hP rest
        rw [List.append_assoc]
        exact readSeparated_last hws (hi.reads hP _)
      · intro hP rest
        rw [List.append_assoc]
        exact readSeparated_none (hi.refuses hP _)
    | cons i' is =>
      have htail := ih (by simp) his (Nat.le_of_succ_le_succ hn)
      rw [List.map_cons, List.map_cons, commaSeparated_cons_cons, ← List.map_cons, List.append_assoc, List.cons_append]
      have hsplit : ∀ rest, (text i ++ comma :: (commaSeparated ((i' :: is).map text) ++ [close])) ++ rest =
          text i ++ comma :: ((commaSeparated ((i' :: is).map text) ++ [close]) ++ rest) := fun rest => by simp
      constructor
      · intro hP rest
        obtain ⟨hPi, hPis⟩ := List.forall_mem_cons.mp hP
        rw [hsplit, (readSeparated_comma_strict hclose hi _).1 hPi, htail.reads hPis]
        rfl
      · intro hP rest
        rw [hsplit]
        by_cases hPi : P i
        · rw [(readSeparated_comma_strict hclose hi _).1 hPi, htail.refuses fun hPis => hP (List.forall_mem_cons.mpr ⟨hPi, hPis⟩)]
          rfl
        · exact (readSeparated_comma_strict hclose hi _).2 hPi

end Lists

section Values
variable {depth : Nat} {name t : Bytes} {v : Json} {P : Prop}

theorem readMember_strict {read : Bytes → Option (Json × Bytes)} (hname : ∀ c ∈ name, isPlain c)
    (h : Strict read t v P) : Strict (readMember read) (memberText name t) (name, v) P where
  reads hP rest := by
    rw [memberText_append, readMember_memberText hname]
    exact (h.map (name, ·)).reads hP rest
  refuses hP rest := by
    rw [memberText_append, readMember_memberText hname]
    exact (h.map (name, ·)).refuses hP rest

theorem readMember_none {read : Bytes → Option (Json × Bytes)} (hname : ∀ c ∈ name, isPlain c) {src : Bytes}
    (h : read src = none) : readMember read (memberText name src) = none := by
  rw [readMember_memberText hname, h]
  rfl

/-- A member of an object: its name, the text of its value, and the value that is read from it if `reads`. -/
structure Part where
  name : Bytes
  text : Bytes
  value : Json
  reads : Prop

def Part.member (p : Part) : Bytes := memberText p.name p.text

/-- A part that is what it says, at a depth. -/
structure Part.Ok (depth : Nat) (p : Part) : Prop where
  plain : ∀ c ∈ p.name, isPlain c
  strict : Strict (readValue depth) p.text p.value p.reads

theorem Part.Ok.member_strict {p : Part} (h : p.Ok depth) :
    Strict (readMember (readValue depth)) p.member (p.name, p.value) p.reads :=
  readMember_strict h.plain h.strict

theorem object_strict {ps : List Part} (hne : ps ≠ []) (h : ∀ p ∈ ps, p.Ok depth) :
    Strict (readValue (depth + 1)) (objectText (ps.map Part.member)) (.object (ps.map fun p => (p.name, p.value)))
      (∀ p ∈ ps, p.reads) := by
  have hstart : ∃ src, commaSeparated (ps.map Part.member) ++ [closeBrace] = quotationMark :: src := by
    obtain ⟨p, ps, rfl⟩ := List.exists_cons_of_ne_nil hne
    exact ⟨_, by rw [List.map_cons, commaSeparated_cons, Part.member, memberText]; rfl⟩
  have hread : ∀ rest, readList (readMember (readValue depth)) closeBrace
      ((commaSeparated (ps.map Part.member) ++ [closeBrace]) ++ rest) =
        readSeparated (readMember (readValue depth)) closeBrace
          ((commaSeparated (ps.map Part.member) ++ [closeBrace]) ++ rest).length
          ((commaSeparated (ps.map Part.member) ++ [closeBrace]) ++ rest) := by
    obtain ⟨src, hsrc⟩ := hstart
    intro rest
    rw [hsrc]
    exact readList_cons (by decide) (by decide)
  have hlength (rest : Bytes) : ps.length ≤ ((commaSeparated (ps.map Part.member) ++ [closeBrace]) ++ rest).length := by
    have hle := length_le_commaSeparated (ps.map Part.member)
    simp only [List.length_map, List.length_append, List.length_cons, List.length_nil] at hle ⊢
    omega
  have hitems (rest : Bytes) := readSeparated_strict (n := ((commaSeparated (ps.map Part.member) ++ [closeBrace]) ++ rest).length)
    (by decide : closeBrace ≠ comma) (by decide) hne (fun p hp => (h p hp).member_strict) (hlength rest)
  refine .cons readValue_object (.map object ⟨fun hP rest => ?_, fun hP rest => ?_⟩)
  · rw [hread]
    exact (hitems rest).reads hP rest
  · rw [hread]
    exact (hitems rest).refuses hP rest

/-- No object is read whose first parts lead to something no object goes on with. -/
theorem object_front_none {ps : List Part} (h : ∀ p ∈ ps, p.Ok depth) {src : Bytes}
    (hstart : src.head? = some quotationMark)
    (hsrc : ∀ n, readSeparated (readMember (readValue depth)) closeBrace n src = none) :
    readValue (depth + 1) (openBrace :: (ps.flatMap (fun p => p.member ++ [comma]) ++ src)) = none := by
  obtain ⟨src', hsrc'⟩ : ∃ src', ps.flatMap (fun p => p.member ++ [comma]) ++ src = quotationMark :: src' := by
    cases ps with
    | nil => exact List.head?_eq_some_iff.mp hstart
    | cons p ps => exact ⟨_, rfl⟩
  rw [readValue_object, hsrc', readList_cons (by decide) (by decide), ← hsrc',
    readSeparated_front_none (by decide) (fun p hp => (h p hp).member_strict) hsrc]
  rfl

/-- No object is read whose last value is none. -/
theorem object_lastNone {ps : List Part} (h : ∀ p ∈ ps, p.Ok depth) (hname : ∀ c ∈ name, isPlain c) {src : Bytes}
    (hsrc : readValue depth src = none) :
    readValue (depth + 1) (openBrace :: (ps.flatMap (fun p => p.member ++ [comma]) ++ memberText name src)) = none := by
  refine object_front_none h rfl fun n => ?_
  cases n with
  | zero => rfl
  | succ n => exact readSeparated_none (readMember_none hname hsrc)

/-- No object is read whose last part is followed by neither a comma nor a brace. -/
theorem object_junk_none {ps : List Part} (h : ∀ p ∈ ps, p.Ok depth) {p : Part} (hp : p.Ok depth) {src : Bytes}
    (hsrc : ∀ c rest, skip src = c :: rest → c ≠ closeBrace ∧ c ≠ comma) :
    readValue (depth + 1) (openBrace :: (ps.flatMap (fun p => p.member ++ [comma]) ++ (p.member ++ src))) = none := by
  refine object_front_none h rfl fun n => ?_
  cases n with
  | zero => rfl
  | succ n => exact readSeparated_junk hp.member_strict hsrc

/-- No object is read that is not closed. -/
theorem object_open_none {ps : List Part} (h : ∀ p ∈ ps, p.Ok depth) {p : Part} (hp : p.Ok depth) :
    readValue (depth + 1) (openBrace :: (ps.flatMap (fun p => p.member ++ [comma]) ++ p.member)) = none := by
  have hopen := object_junk_none h hp fun c rest (hskip : skip [] = c :: rest) => by cases hskip
  rwa [List.append_nil] at hopen

/-- A text decodes to the intended value if P, and to none otherwise. -/
theorem parse_strict {n : Nat} (hn : n ≤ t.length) (h : ∀ depth, Strict (readValue (depth + n)) t v P) :
    (P → parse t = some v) ∧ (¬ P → parse t = none) := by
  have h : Strict (readValue t.length) t v P := Nat.sub_add_cancel hn ▸ h (t.length - n)
  constructor
  · intro hP
    have hread := h.reads hP []
    rw [List.append_nil] at hread
    rw [parse, hread]
    rfl
  · intro hP
    have hread := h.refuses hP []
    rw [List.append_nil] at hread
    rw [parse, hread]
    rfl

theorem parse_none {n : Nat} (hn : n ≤ t.length) (h : ∀ depth, readValue (depth + n) t = none) : parse t = none := by
  have hread : readValue t.length t = none := Nat.sub_add_cancel hn ▸ h (t.length - n)
  rw [parse, hread]
  rfl

theorem true_strict (depth : Nat) : Strict (readValue (depth + 1)) (text "true") (.bool true) True :=
  ⟨fun _ => readValue_true, fun h => absurd trivial h⟩

theorem false_strict (depth : Nat) : Strict (readValue (depth + 1)) (text "false") (.bool false) True :=
  ⟨fun _ => readValue_false, fun h => absurd trivial h⟩

end Values
end RootHerald.Lib.Json
