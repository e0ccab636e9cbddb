import RootHerald.Lib.Json

/-! A lenient reading of the value that stands at the front of a text: a string up to the next mark that is
not escaped, and anything else up to the comma or the bracket behind it. -/
namespace RootHerald.Lib.Lenient
open Json

section Reading
variable (escape : UInt8 → UInt8)

/-- Up to the closing mark, or the end; a reverse solidus stands for the character behind it. -/
def readQuoted : Bytes → Bytes
  | [] => []
  | c :: rest =>
    if c = quotationMark then []
    else if c = reverseSolidus then
      match rest with
      | [] => [c]
      | d :: rest => escape d :: readQuoted rest
    else c :: readQuoted rest

def readBare (depth : Nat) : Bytes → Bytes
  | [] => []
  | c :: rest =>
    if c = openBrace ∨ c = openBracket then c :: readBare (depth + 1) rest
    else if c = closeBrace ∨ c = closeBracket then
      if depth = 0 then [] else c :: readBare (depth - 1) rest
    else if depth = 0 ∧ c = comma then []
    else c :: readBare depth rest

def readFront : Bytes → Bytes
  | [] => []
  | c :: rest => if c = quotationMark then readQuoted escape rest else readBare 0 (c :: rest)

end Reading

section Spans

/-- How many bytes stand before the closing mark, or the end. -/
def quotedSpan : Bytes → Nat
  | [] => 0
  | c :: rest =>
    if c = quotationMark then 0
    else if c = reverseSolidus then
      match rest with
      | [] => 1
      | _ :: rest => quotedSpan rest + 2
    else quotedSpan rest + 1

/-- How many bytes stand before the end of what is no string. -/
def bareSpan (depth : Nat) : Bytes → Nat
  | [] => 0
  | c :: rest =>
    if c = openBrace ∨ c = openBracket then bareSpan (depth + 1) rest + 1
    else if c = closeBrace ∨ c = closeBracket then
      if depth = 0 then 0 else bareSpan (depth - 1) rest + 1
    else if depth = 0 ∧ c = comma then 0
    else bareSpan depth rest + 1

/-- A cut behind n bytes stands between the two bytes of an escaped reverse solidus, the last of the string. -/
def splitsSolidus : Bytes → Nat → Bool
  | [], _ => false
  | c :: rest, n =>
    if c = quotationMark then false
    else if c = reverseSolidus then
      match rest with
      | [] => false
      | d :: rest => (n = 1 && d = reverseSolidus && quotedSpan rest = 0) || (2 ≤ n && splitsSolidus rest (n - 2))
    else 1 ≤ n && splitsSolidus rest (n - 1)

/-- A cut behind n bytes leaves nothing of the value, or all of it, or ends in half of an escaped reverse
solidus that ends it. -/
def HarmlessCut : Bytes → Nat → Prop
  | [], _ => True
  | c :: rest, n =>
    if c = quotationMark then n ≤ 1 ∨ quotedSpan rest + 1 ≤ n ∨ splitsSolidus rest (n - 1) = true
    else n = 0 ∨ bareSpan 0 (c :: rest) ≤ n

end Spans

section Steps
variable (escape : UInt8 → UInt8) {c : UInt8} (d : UInt8) (s : Bytes) (n : Nat)

theorem readQuoted_mark : readQuoted escape (quotationMark :: s) = [] := by
  cases s <;> exact if_pos rfl

theorem readQuoted_escaped : readQuoted escape (reverseSolidus :: d :: s) = escape d :: readQuoted escape s :=
  (if_neg (by decide)).trans (if_pos rfl)

variable {s n} in
theorem readQuoted_plain (hmark : c ≠ quotationMark) (hsolidus : c ≠ reverseSolidus) :
    readQuoted escape (c :: s) = c :: readQuoted escape s := by
  cases s <;> exact (if_neg hmark).trans (if_neg hsolidus)

theorem quotedSpan_mark : quotedSpan (quotationMark :: s) = 0 := by
  cases s <;> exact if_pos rfl

theorem quotedSpan_escaped : quotedSpan (reverseSolidus :: d :: s) = quotedSpan s + 2 :=
  (if_neg (by decide)).trans (if_pos rfl)

theorem quotedSpan_plain (hmark : c ≠ quotationMark) (hsolidus : c ≠ reverseSolidus) :
    quotedSpan (c :: s) = quotedSpan s + 1 := by
  cases s <;> exact (if_neg hmark).trans (if_neg hsolidus)

theorem splitsSolidus_escaped : splitsSolidus (reverseSolidus :: d :: s) n =
    ((n = 1 && d = reverseSolidus && quotedSpan s = 0) || (2 ≤ n && splitsSolidus s (n - 2))) :=
  (if_neg (by decide)).trans (if_pos rfl)

theorem splitsSolidus_plain (hmark : c ≠ quotationMark) (hsolidus : c ≠ reverseSolidus) :
    splitsSolidus (c :: s) n = (1 ≤ n && splitsSolidus s (n - 1)) := by
  cases s <;> exact (if_neg hmark).trans (if_neg hsolidus)

end Steps

section Cut
variable {escape : UInt8 → UInt8} {s : Bytes} {n depth : Nat}

theorem readQuoted_eq_nil_iff : readQuoted escape s = [] ↔ quotedSpan s = 0 := by
  fun_cases readQuoted escape s with
  | case1 => exact iff_of_true rfl rfl
  | case2 s => exact iff_of_true rfl (quotedSpan_mark s)
  | case3 => exact iff_of_false (List.cons_ne_nil _ _) (by decide)
  | case4 d s =>
    rw [quotedSpan_escaped]
    exact iff_of_false (List.cons_ne_nil _ _) (Nat.succ_ne_zero _)
  | case5 c s hmark hsolidus =>
    rw [quotedSpan_plain s hmark hsolidus]
    exact iff_of_false (List.cons_ne_nil _ _) (Nat.succ_ne_zero _)

/-- A string whose closing mark alone is cut off reads the same. -/
theorem readQuoted_take (h : quotedSpan s ≤ n) : readQuoted escape (s.take n) = readQuoted escape s := by
  fun_induction readQuoted escape s generalizing n with
  | case1 => rw [List.take_nil]; rfl
  | case2 s =>
    cases n with
    | zero => rfl
    | succ n => rw [List.take_succ_cons, readQuoted_mark]
  | case3 =>
    cases n with
    | zero => exact absurd h (by decide)
    | succ n => rw [List.take_succ_cons, List.take_nil]; rfl
  | case4 d s _ ih =>
    rw [quotedSpan_escaped] at h
    obtain ⟨n, rfl⟩ : ∃ n', n = n' + 2 := ⟨n - 2, by omega⟩
    rw [List.take_succ_cons, List.take_succ_cons, readQuoted_escaped, ih (by omega)]
  | case5 c s hmark hsolidus ih =>
    rw [quotedSpan_plain s hmark hsolidus] at h
    obtain ⟨n, rfl⟩ : ∃ n', n = n' + 1 := ⟨n - 1, by omega⟩
    rw [List.take_succ_cons, readQuoted_plain escape hmark hsolidus, ih (by omega)]

theorem splitsSolidus_zero (s : Bytes) : splitsSolidus s 0 = false := by
  cases s with
  | nil => rfl
  | cons c s =>
    rw [splitsSolidus.eq_def]
    dsimp only
    split_ifs
    · rfl
    · cases s <;> rfl
    · rfl

private theorem readQuoted_take_zero (h : 0 < quotedSpan s) :
    readQuoted escape (s.take 0) = readQuoted escape s ↔ splitsSolidus s 0 = true := by
  rw [List.take_zero, splitsSolidus_zero]
  refine iff_of_false (fun hread => ?_) Bool.false_ne_true
  rw [readQuoted_eq_nil_iff.1 hread.symm] at h
  exact lt_irrefl 0 h

/-- Of the cuts before its closing mark, a string is read whole behind one that splits its last character. -/
theorem readQuoted_take_eq_iff (hescape : ∀ d, escape d = reverseSolidus ↔ d = reverseSolidus) (h : n < quotedSpan s) :
    readQuoted escape (s.take n) = readQuoted escape s ↔ splitsSolidus s n = true := by
  fun_induction quotedSpan s generalizing n with
  | case1 | case2 => exact absurd h (Nat.not_lt_zero _)
  | case3 =>
    obtain rfl : n = 0 := by omega
    exact readQuoted_take_zero Nat.one_pos
  | case4 d s _ ih =>
    match n with
    | 0 => exact readQuoted_take_zero (by rw [quotedSpan_escaped]; exact Nat.succ_pos _)
    | 1 =>
      -- of the pair the solidus alone is left
      have hlone : readQuoted escape ((reverseSolidus :: d :: s).take 1) = [reverseSolidus] := rfl
      rw [hlone, readQuoted_escaped, splitsSolidus_escaped, List.cons.injEq, eq_comm (b := escape d), hescape,
        eq_comm (a := []), readQuoted_eq_nil_iff]
      simp
    | n + 2 =>
      rw [List.take_succ_cons, List.take_succ_cons, readQuoted_escaped, readQuoted_escaped, splitsSolidus_escaped,
        List.cons.injEq, ih (by omega)]
      simp
  | case5 c s hmark hsolidus ih =>
    match n with
    | 0 => exact readQuoted_take_zero (by rw [quotedSpan_plain s hmark hsolidus]; exact Nat.succ_pos _)
    | n + 1 =>
      rw [List.take_succ_cons, readQuoted_plain escape hmark hsolidus, readQuoted_plain escape hmark hsolidus,
        splitsSolidus_plain s _ hmark hsolidus, List.cons.injEq, ih (by omega)]
      simp

theorem quotedSpan_take (n : Nat) (s : Bytes) : quotedSpan (s.take n) = min n (quotedSpan s) := by
  fun_induction quotedSpan s generalizing n with
  | case1 => rw [List.take_nil, quotedSpan, Nat.min_zero]
  | case2 s =>
    cases n with
    | zero => rfl
    | succ n => rw [List.take_succ_cons, quotedSpan_mark, Nat.min_zero]
  | case3 =>
    cases n with
    | zero => rfl
    | succ n => rw [List.take_succ_cons, List.take_nil, min_eq_right (Nat.succ_pos n)]; rfl
  | case4 d s _ ih =>
    match n with
    | 0 => rfl
    | 1 => rw [min_eq_left (by omega)]; rfl
    | n + 2 =>
      rw [List.take_succ_cons, List.take_succ_cons, quotedSpan_escaped, ih]
      omega
  | case5 c s hmark hsolidus ih =>
    cases n with
    | zero => rfl
    | succ n =>
      rw [List.take_succ_cons, quotedSpan_plain _ hmark hsolidus, ih]
      omega

theorem readBare_take (depth n : Nat) (s : Bytes) : readBare depth (s.take n) = s.take (min n (bareSpan depth s)) := by
  induction s generalizing depth n with
  | nil => rw [List.take_nil, List.take_nil, readBare]
  | cons c s ih =>
    cases n with
    | zero => rw [Nat.zero_min, List.take_zero, readBare]
    | succ n =>
      rw [List.take_succ_cons, readBare, bareSpan]
      split_ifs
      · rw [ih, Nat.succ_min_succ, List.take_succ_cons]
      · rw [Nat.min_zero, List.take_zero]
      · rw [ih, Nat.succ_min_succ, List.take_succ_cons]
      · rw [Nat.min_zero, List.take_zero]
      · rw [ih, Nat.succ_min_succ, List.take_succ_cons]

theorem bareSpan_le (depth : Nat) (s : Bytes) : bareSpan depth s ≤ s.length := by
  fun_induction bareSpan depth s with
  | case1 => exact le_refl _
  | case2 _ _ _ _ ih => exact Nat.succ_le_succ ih
  | case3 => exact Nat.zero_le _
  | case4 _ _ _ _ _ _ ih => exact Nat.succ_le_succ ih
  | case5 => exact Nat.zero_le _
  | case6 _ _ _ _ _ _ ih => exact Nat.succ_le_succ ih

theorem readBare_eq (depth : Nat) (s : Bytes) : readBare depth s = s.take (bareSpan depth s) := by
  have h := readBare_take depth s.length s
  rwa [List.take_length, min_eq_right (bareSpan_le depth s)] at h

theorem readFront_eq_nil_iff (escape' : UInt8 → UInt8) : readFront escape s = [] ↔ readFront escape' s = [] := by
  cases s with
  | nil => exact Iff.rfl
  | cons c s =>
    rw [readFront, readFront]
    split_ifs
    · rw [readQuoted_eq_nil_iff, readQuoted_eq_nil_iff]
    · exact Iff.rfl

private theorem quoted_take_iff (hescape : ∀ d, escape d = reverseSolidus ↔ d = reverseSolidus) :
    (readQuoted escape (s.take n) = [] ∨ readQuoted escape (s.take n) = readQuoted escape s) ↔
      (n = 0 ∨ quotedSpan s ≤ n ∨ splitsSolidus s n = true) := by
  rw [readQuoted_eq_nil_iff, quotedSpan_take]
  by_cases hlt : n < quotedSpan s
  · rw [readQuoted_take_eq_iff hescape hlt, min_eq_left hlt.le, or_iff_right (not_le.mpr hlt)]
  · exact iff_of_true (.inr (readQuoted_take (not_lt.mp hlt))) (.inr (.inl (not_lt.mp hlt)))

private theorem bare_take_iff : (readBare 0 (s.take n) = [] ∨ readBare 0 (s.take n) = readBare 0 s) ↔
    (n = 0 ∨ bareSpan 0 s ≤ n) := by
  have hle := bareSpan_le 0 s
  rw [readBare_take, readBare_eq]
  constructor
  · intro h
    have hlength : min n (bareSpan 0 s) = 0 ∨ min n (bareSpan 0 s) = bareSpan 0 s := by
      rcases h with h | h
      · have hlength := congrArg List.length h
        rw [List.length_take, List.length_nil] at hlength
        omega
      · have hlength := congrArg List.length h
        rw [List.length_take, List.length_take] at hlength
        omega
    omega
  · rintro (rfl | h)
    · exact .inl (by rw [Nat.zero_min, List.take_zero])
    · exact .inr (by rw [min_eq_right h])

/-- The cut text reads as nothing or as the whole one exactly behind a harmless cut. -/
theorem readFront_take_iff (hescape : ∀ d, escape d = reverseSolidus ↔ d = reverseSolidus) :
    (readFront escape (s.take n) = [] ∨ readFront escape (s.take n) = readFront escape s) ↔ HarmlessCut s n := by
  cases s with
  | nil => exact iff_of_true (.inl (by rw [List.take_nil, readFront])) trivial
  | cons c s =>
    rw [HarmlessCut.eq_def]
    dsimp only
    cases n with
    | zero =>
      apply iff_of_true (.inl (by rw [List.take_zero, readFront]))
      split_ifs
      · exact .inl (Nat.zero_le 1)
      · exact .inl rfl
    | succ n =>
      have hfront : readFront escape ((c :: s).take (n + 1)) =
          if c = quotationMark then readQuoted escape (s.take n) else readBare 0 ((c :: s).take (n + 1)) := by
        rw [List.take_succ_cons, readFront]
      rw [hfront, readFront]
      split_ifs with hmark
      · have hzero : n = 0 ↔ n + 1 ≤ 1 := by omega
        have hspan : quotedSpan s ≤ n ↔ quotedSpan s + 1 ≤ n + 1 := by omega
        rw [quoted_take_iff hescape, Nat.add_sub_cancel, hzero, hspan]
      · exact bare_take_iff.trans (or_congr_left (iff_false_intro (Nat.succ_ne_zero n)))

end Cut

section Written

/-- A text behind an opening mark that is written for a value, with the meaning of an escaped character. -/
inductive Quoted (means : UInt8 → UInt8 → Prop) : Bytes → Bytes → Prop where
  | mark (rest : Bytes) : Quoted means (quotationMark :: rest) []
  | ended : Quoted means [] []
  | lone : Quoted means [reverseSolidus] [reverseSolidus]
  | escaped {d x : UInt8} {s v : Bytes} (hmeans : means d x) (hrest : Quoted means s v) :
      Quoted means (reverseSolidus :: d :: s) (x :: v)
  | plain {c : UInt8} {s v : Bytes} (hmark : c ≠ quotationMark) (hsolidus : c ≠ reverseSolidus)
      (hrest : Quoted means s v) : Quoted means (c :: s) (c :: v)

/-- How deep the brackets nest behind a text, unless it closes more than it opens or has a comma outside. -/
def depthBehind : Nat → Bytes → Option Nat
  | depth, [] => some depth
  | depth, c :: rest =>
    if c = openBrace ∨ c = openBracket then depthBehind (depth + 1) rest
    else if c = closeBrace ∨ c = closeBracket then
      if depth = 0 then none else depthBehind (depth - 1) rest
    else if depth = 0 ∧ c = comma then none
    else depthBehind depth rest

/-- What ends a value that is no string. -/
def EndsBare (depth : Nat) (rest : Bytes) : Prop :=
  rest = [] ∨ depth = 0 ∧ ∃ c tail, rest = c :: tail ∧ (c = closeBrace ∨ c = closeBracket ∨ c = comma)

/-- The text begins with the value as it is. -/
def Bare (s v : Bytes) : Prop :=
  ∃ rest depth, s = v ++ rest ∧ depthBehind 0 v = some depth ∧ EndsBare depth rest

/-- The text begins with the value, in marks or bare. -/
def StandsFor (means : UInt8 → UInt8 → Prop) : Bytes → Bytes → Prop
  | [], v => v = []
  | c :: s, v => if c = quotationMark then Quoted means s v else Bare (c :: s) v

variable {escape escape' : UInt8 → UInt8} {s v : Bytes}

theorem readQuoted_both_iff : (readQuoted escape s = v ∧ readQuoted escape' s = v) ↔
    Quoted (fun d x => escape d = x ∧ escape' d = x) s v := by
  constructor
  · rintro ⟨rfl, h⟩
    fun_induction readQuoted escape s with
    | case1 => exact .ended
    | case2 s => exact .mark s
    | case3 => exact .lone
    | case4 d s _ ih =>
      rw [readQuoted_escaped, List.cons.injEq] at h
      exact .escaped ⟨rfl, h.1⟩ (ih h.2)
    | case5 c s hmark hsolidus ih =>
      rw [readQuoted_plain escape' hmark hsolidus, List.cons.injEq] at h
      exact .plain hmark hsolidus (ih h.2)
  · intro h
    induction h with
    | mark rest => exact ⟨readQuoted_mark _ rest, readQuoted_mark _ rest⟩
    | ended => exact ⟨rfl, rfl⟩
    | lone => exact ⟨rfl, rfl⟩
    | escaped hmeans _ ih =>
      rw [readQuoted_escaped, readQuoted_escaped, ih.1, ih.2, hmeans.1, hmeans.2]
      exact ⟨rfl, rfl⟩
    | plain hmark hsolidus _ ih =>
      rw [readQuoted_plain _ hmark hsolidus, readQuoted_plain _ hmark hsolidus, ih.1, ih.2]
      exact ⟨rfl, rfl⟩

private theorem readBare_stands (depth : Nat) (s : Bytes) : ∃ rest depth', s = readBare depth s ++ rest ∧
    depthBehind depth (readBare depth s) = some depth' ∧ EndsBare depth' rest := by
  induction s generalizing depth with
  | nil => exact ⟨[], depth, rfl, rfl, .inl rfl⟩
  | cons c s ih =>
    rw [readBare]
    split_ifs with hopen hclose hdepth hcomma
    · obtain ⟨rest, depth', hs, hbehind, hends⟩ := ih (depth + 1)
      exact ⟨rest, depth', congrArg _ hs, (if_pos hopen).trans hbehind, hends⟩
    · subst hdepth
      refine ⟨c :: s, 0, rfl, rfl, .inr ⟨rfl, c, s, rfl, ?_⟩⟩
      exact hclose.imp id .inl
    · obtain ⟨rest, depth', hs, hbehind, hends⟩ := ih (depth - 1)
      refine ⟨rest, depth', congrArg _ hs, ?_, hends⟩
      rw [depthBehind, if_neg hopen, if_pos hclose, if_neg hdepth]
      exact hbehind
    · obtain ⟨rfl, rfl⟩ := hcomma
      exact ⟨comma :: s, 0, rfl, rfl, .inr ⟨rfl, comma, s, rfl, .inr (.inr rfl)⟩⟩
    · obtain ⟨rest, depth', hs, hbehind, hends⟩ := ih depth
      refine ⟨rest, depth', congrArg _ hs, ?_, hends⟩
      rw [depthBehind, if_neg hopen, if_neg hclose, if_neg hcomma]
      exact hbehind

private theorem readBare_append {rest : Bytes} {depth depth' : Nat} (hbehind : depthBehind depth v = some depth')
    (hends : EndsBare depth' rest) : readBare depth (v ++ rest) = v := by
  induction v generalizing depth with
  | nil =>
    obtain rfl := Option.some.inj hbehind
    rcases hends with rfl | ⟨rfl, c, tail, rfl, hend⟩
    · rfl
    · rw [List.nil_append, readBare]
      rcases hend with rfl | rfl | rfl <;> rfl
  | cons c v ih =>
    rw [depthBehind] at hbehind
    rw [List.cons_append, readBare]
    split_ifs at hbehind ⊢ with hopen hclose hdepth hcomma
    · rw [ih hbehind]
    · rw [ih hbehind]
    · rw [ih hbehind]

theorem readBare_eq_iff {depth : Nat} : readBare depth s = v ↔
    ∃ rest depth', s = v ++ rest ∧ depthBehind depth v = some depth' ∧ EndsBare depth' rest := by
  constructor
  · rintro rfl
    exact readBare_stands depth s
  · rintro ⟨rest, depth', rfl, hbehind, hends⟩
    exact readBare_append hbehind hends

theorem readFront_both_iff : (readFront escape s = v ∧ readFront escape' s = v) ↔
    StandsFor (fun d x => escape d = x ∧ escape' d = x) s v := by
  cases s with
  | nil =>
    rw [readFront, readFront, StandsFor, eq_comm, and_self]
  | cons c s =>
    rw [readFront, readFront, StandsFor]
    split_ifs with hmark
    · exact readQuoted_both_iff
    · rw [and_self]
      exact readBare_eq_iff

end Written

section Blanks

/-- Brackets and commas. -/
def isDelimiter (c : UInt8) : Bool :=
  c = openBrace || c = openBracket || c = closeBrace || c = closeBracket || c = comma

variable {escape : UInt8 → UInt8} {s blanks : Bytes}

/-- Brackets and commas stay what they are behind a reverse solidus, and nothing else becomes one. -/
def KeepsDelimiters (escape : UInt8 → UInt8) : Prop :=
  ∀ d, (isDelimiter d = true → escape d = d) ∧ (isDelimiter d = false → isDelimiter (escape d) = false)

private theorem not_delimiter {c : UInt8} (hc : isDelimiter c = false) :
    ¬ (c = openBrace ∨ c = openBracket) ∧ ¬ (c = closeBrace ∨ c = closeBracket) ∧ c ≠ comma := by
  simp only [isDelimiter, Bool.or_eq_false_iff, decide_eq_false_iff_not] at hc
  obtain ⟨⟨⟨⟨hbrace, hbracket⟩, hbrace'⟩, hbracket'⟩, hcomma⟩ := hc
  exact ⟨not_or.mpr ⟨hbrace, hbracket⟩, not_or.mpr ⟨hbrace', hbracket'⟩, hcomma⟩

theorem readBare_plain {c : UInt8} (hc : isDelimiter c = false) (depth : Nat) (s : Bytes) :
    readBare depth (c :: s) = c :: readBare depth s := by
  obtain ⟨hopen, hclose, hcomma⟩ := not_delimiter hc
  rw [readBare, if_neg hopen, if_neg hclose, if_neg fun h => hcomma h.2]

private theorem depthBehind_plain {c : UInt8} (hc : isDelimiter c = false) (depth : Nat) (s : Bytes) :
    depthBehind depth (c :: s) = depthBehind depth s := by
  obtain ⟨hopen, hclose, hcomma⟩ := not_delimiter hc
  rw [depthBehind, if_neg hopen, if_neg hclose, if_neg fun h => hcomma h.2]

/-- The value of a string ends what is bare around it, or the bare text is not shorter. -/
private theorem readQuoted_ends_or (hescape : KeepsDelimiters escape) (depth : Nat) (s : Bytes) :
    depthBehind depth (readQuoted escape s) = none ∨ (readQuoted escape s).length ≤ (readBare depth s).length := by
  have hstep (c : UInt8) (depth : Nat) (s q : Bytes)
      (ih : ∀ depth, depthBehind depth q = none ∨ q.length ≤ (readBare depth s).length) :
      depthBehind depth (c :: q) = none ∨ (c :: q).length ≤ (readBare depth (c :: s)).length := by
    rw [depthBehind, readBare]
    split_ifs with hopen hclose hdepth hcomma
    · exact (ih _).imp id Nat.succ_le_succ
    · exact .inl rfl
    · exact (ih _).imp id Nat.succ_le_succ
    · exact .inl rfl
    · exact (ih _).imp id Nat.succ_le_succ
  fun_induction readQuoted escape s generalizing depth with
  | case1 => exact .inr (Nat.zero_le _)
  | case2 => exact .inr (Nat.zero_le _)
  | case3 => exact .inr (by rw [readBare_plain (by decide)]; exact Nat.succ_pos _)
  | case4 d s _ ih =>
    rw [readBare_plain (by decide), List.length_cons (a := reverseSolidus)]
    cases hd : isDelimiter d with
    | true =>
      rw [(hescape d).1 hd]
      exact (hstep d depth s _ ih).imp id fun h => h.trans (Nat.le_succ _)
    | false =>
      rw [depthBehind_plain ((hescape d).2 hd), readBare_plain hd]
      exact (ih depth).imp id fun h => Nat.succ_le_succ (h.trans (Nat.le_succ _))
  | case5 c s _ _ ih => exact hstep c depth s _ ih

private theorem readBare_append_plain (hblanks : ∀ c ∈ blanks, isDelimiter c = false) (s : Bytes) :
    readBare 0 (blanks ++ s) = blanks ++ readBare 0 s := by
  induction blanks with
  | nil => rfl
  | cons c blanks ih =>
    rw [List.cons_append, readBare_plain (hblanks c List.mem_cons_self),
      ih fun c hc => hblanks c (List.mem_cons_of_mem _ hc), List.cons_append]

/-- What is read with blanks in front, taken for bare text, is not what is read behind them. -/
theorem readBare_blanks_ne (hescape : KeepsDelimiters escape) (hne : blanks ≠ [])
    (hblanks : ∀ c ∈ blanks, isDelimiter c = false) (s : Bytes) :
    readBare 0 (blanks ++ s) ≠ readFront escape s := by
  have hpos := List.length_pos_iff.mpr hne
  intro heq
  cases s with
  | nil =>
    rw [readFront, readBare_append_plain hblanks, readBare, List.append_nil] at heq
    exact hne heq
  | cons c s =>
    rw [readFront] at heq
    split_ifs at heq with hmark
    · -- in the string the bare text would end, or it is longer
      obtain ⟨rest, depth, -, hbehind, -⟩ := readBare_stands 0 (blanks ++ c :: s)
      rcases readQuoted_ends_or hescape 0 s with hnone | hle
      · rw [heq, hnone] at hbehind
        cases hbehind
      · have hlength := congrArg List.length heq
        rw [readBare_append_plain hblanks, hmark, readBare_plain (by decide), List.length_append, List.length_cons] at hlength
        omega
    · have hlength := congrArg List.length heq
      rw [readBare_append_plain hblanks, List.length_append] at hlength
      omega

end Blanks
end RootHerald.Lib.Lenient
