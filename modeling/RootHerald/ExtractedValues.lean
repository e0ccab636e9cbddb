import RootHerald.JsonValues
import RootHerald.Lib.LenientStrict

/-! Which members of an object both extractors read as they are. -/
namespace RootHerald
open Lib Json Lenient Linux

section Escapes

/-- The escapes that both read alike: a line feed, and any character but t for itself. -/
def ReadAlike (d x : UInt8) : Prop :=
  if d = 'n'.toUInt8 then x = '\n'.toUInt8 else d ≠ 't'.toUInt8 ∧ x = d

theorem readAlike_iff {d x : UInt8} : (Windows.unescapeChar d = x ∧ Linux.unescapeChar d = x) ↔ ReadAlike d x := by
  unfold Windows.unescapeChar Linux.unescapeChar ReadAlike
  split_ifs with hn ht
  · rw [show Windows.newline = '\n'.toUInt8 from rfl, and_self, eq_comm]
  · rw [ht]
    refine iff_of_false (fun h => ?_) fun h => h.1 rfl
    exact absurd (h.1.trans h.2.symm) (by decide)
  · rw [and_self, eq_comm, and_iff_right ht]

private theorem keepsDelimiters_linux : KeepsDelimiters Linux.unescapeChar := by
  intro d
  unfold Linux.unescapeChar
  split_ifs with hn ht
  · rw [hn]
    decide
  · rw [ht]
    decide
  · exact ⟨fun _ => rfl, id⟩

end Escapes

section Places
variable {key json v : Bytes}

private theorem isBlank_of_isSpaceOrTab {c : UInt8} (h : Windows.isSpaceOrTab c = true) : Linux.isBlank c = true := by
  unfold Windows.isSpaceOrTab at h
  unfold Linux.isBlank
  rw [h]
  rfl

private theorem dropWhile_blank (s : Bytes) : (s.dropWhile Windows.isSpaceOrTab).dropWhile Linux.isBlank = s.dropWhile Linux.isBlank := by
  induction s with
  | nil => rfl
  | cons c s ih =>
    cases hc : Windows.isSpaceOrTab c with
    | true => rw [List.dropWhile_cons_of_pos hc, ih, List.dropWhile_cons_of_pos (isBlank_of_isSpaceOrTab hc)]
    | false => rw [List.dropWhile_cons_of_neg (Bool.eq_false_iff.mp hc)]

/-- The place json_get finds is the one JsonGet finds, or stands behind line breaks there. -/
theorem valuePlace_blanks (h : Linux.valuePlace key json ≠ []) :
    ∃ blanks, Windows.valuePlace key json = blanks ++ Linux.valuePlace key json ∧ ∀ c ∈ blanks, Linux.isBlank c = true := by
  unfold Linux.valuePlace at h ⊢
  unfold Windows.valuePlace
  generalize behindFirst (quotedKey key) json = rest at h ⊢
  split_ifs at h ⊢ with hlimit
  · exact absurd rfl h
  cases hrest : rest.dropWhile Linux.isBlank with
  | nil =>
    rw [hrest] at h
    exact absurd rfl h
  | cons c after =>
    rw [hrest, behindHead] at h
    rw [behindHead]
    split_ifs at h ⊢ with hcolon
    · rw [decide_eq_true_iff] at hcolon
      subst hcolon
      have hsplit : rest = rest.takeWhile Linux.isBlank ++ colon :: after := by
        rw [← hrest, List.takeWhile_append_dropWhile]
      have hfront : colon ∉ rest.takeWhile Linux.isBlank := fun hmem => absurd (List.mem_takeWhile_imp hmem) (by decide)
      have hplace : behindFirst [colon] rest = after := by
        rw [hsplit]
        exact behindFirst_singleton hfront after
      rw [hplace, ← dropWhile_blank after]
      exact ⟨_, List.takeWhile_append_dropWhile.symm, fun c => List.mem_takeWhile_imp⟩
    · exact absurd rfl h

private theorem isDelimiter_of_isBlank {c : UInt8} (h : Linux.isBlank c = true) : isDelimiter c = false ∧ c ≠ quotationMark := by
  unfold Linux.isBlank at h
  simp only [Bool.or_eq_true, decide_eq_true_eq] at h
  rcases h with ((rfl | rfl) | rfl) | rfl <;> decide

/-- json_get finds no place, or the one JsonGet finds, or one behind line breaks there. -/
private theorem valuePlace_cases (key json : Bytes) : Linux.valuePlace key json = [] ∨
    Linux.valuePlace key json = Windows.valuePlace key json ∨
    ∃ b blanks, Windows.valuePlace key json = (b :: blanks) ++ Linux.valuePlace key json ∧
      ∀ c ∈ b :: blanks, Linux.isBlank c = true := by
  by_cases hnone : Linux.valuePlace key json = []
  · exact .inl hnone
  obtain ⟨blanks, hplace, hblanks⟩ := valuePlace_blanks hnone
  cases blanks with
  | nil => exact .inr (.inl hplace.symm)
  | cons b blanks => exact .inr (.inr ⟨b, blanks, hplace, hblanks⟩)

/-- Blanks in front are taken for bare text, and json_get reads something else behind them. -/
private theorem readFront_blanks {b : UInt8} {blanks : Bytes} (hblanks : ∀ c ∈ b :: blanks, Linux.isBlank c = true)
    (escape : UInt8 → UInt8) (rest : Bytes) : readFront escape ((b :: blanks) ++ rest) ≠ [] ∧
      readFront escape ((b :: blanks) ++ rest) ≠ readFront Linux.unescapeChar rest := by
  have hb := isDelimiter_of_isBlank (hblanks b List.mem_cons_self)
  have hbare : readFront escape ((b :: blanks) ++ rest) = readBare 0 ((b :: blanks) ++ rest) := if_neg hb.2
  rw [hbare]
  constructor
  · rw [List.cons_append, readBare_plain hb.1]
    exact List.cons_ne_nil _ _
  · exact readBare_blanks_ne keepsDelimiters_linux (List.cons_ne_nil b blanks)
      (fun c hc => (isDelimiter_of_isBlank (hblanks c hc)).1) rest

/-- Both read a value exactly if it stands where JsonGet looks, and json_get looks there too or the value is
empty. -/
theorem both_read_iff : (Windows.jsonGet json key = v ∧ findValue json key = v) ↔
    StandsFor ReadAlike (Windows.valuePlace key json) v ∧
      (v ≠ [] → Linux.valuePlace key json = Windows.valuePlace key json) := by
  have halike : ReadAlike = fun d x => Windows.unescapeChar d = x ∧ Linux.unescapeChar d = x := by
    funext d x
    exact propext readAlike_iff.symm
  rw [Windows.jsonGet_eq, findValue_eq, halike, ← readFront_both_iff]
  rcases valuePlace_cases key json with hnone | hsame | ⟨b, blanks, hplace, hblanks⟩
  · rw [hnone, readFront]
    constructor
    · rintro ⟨hwindows, rfl⟩
      exact ⟨⟨hwindows, (readFront_eq_nil_iff _).mp hwindows⟩, fun h => absurd rfl h⟩
    · rintro ⟨⟨hwindows, -⟩, hplaces⟩
      refine ⟨hwindows, ?_⟩
      by_contra hv
      rw [← hplaces (Ne.symm hv), readFront] at hwindows
      exact hv hwindows
  · rw [hsame]
    exact (and_iff_left fun _ => rfl).symm
  · have hblank := readFront_blanks hblanks Windows.unescapeChar (Linux.valuePlace key json)
    rw [hplace]
    apply iff_of_false
    · rintro ⟨hwindows, hlinux⟩
      exact hblank.2 (hwindows.trans hlinux.symm)
    · rintro ⟨⟨hwindows, -⟩, hplaces⟩
      have hlength := congrArg List.length (hplaces (hwindows ▸ hblank.1))
      rw [List.length_append, List.length_cons] at hlength
      omega

end Places

section Members

/-- What is read of a member: the value of one that is a string, and nothing where there is none. -/
def Expected (members : List (Bytes × Json)) (key v : Bytes) : Prop :=
  (key, .string v) ∈ members ∨ (v = [] ∧ ∀ m ∈ members, m.1 ≠ key)

/-- Both extractors read the members with that name as they are, and nothing where there is none. -/
def ExtractsMember (json key : CString) : Prop :=
  ∀ members, flatMembers json.chars = some members → ∀ v, Expected members key.chars v →
    Windows.jsonGet json.chars key.chars = v ∧
      ∀ dstLen, v.length < dstLen → (Linux.jsonGet json key.chars dstLen).chars = v

/-- The value is written where JsonGet looks, with escapes both read alike, or bare; and unless it is empty,
json_get looks at the same place. -/
def WrittenAt (json key v : Bytes) : Prop :=
  StandsFor ReadAlike (Windows.valuePlace key json) v ∧
    (v ≠ [] → Linux.valuePlace key json = Windows.valuePlace key json)

private theorem every_dstLen_eq {s v : Bytes} : (∀ dstLen, v.length < dstLen → s.take (dstLen - 1) = v) ↔ s = v := by
  constructor
  · intro h
    have hall := h (s.length + v.length + 1) (by omega)
    rwa [Nat.add_sub_cancel, List.take_of_length_le (Nat.le_add_right _ _)] at hall
  · rintro rfl dstLen hlt
    exact List.take_of_length_le (by omega)

/-- A member is extracted exactly if each value it has in the object is the one written at the place. -/
theorem extractsMember_iff (json key : CString) : ExtractsMember json key ↔
    ∀ members, flatMembers json.chars = some members → ∀ v, Expected members key.chars v →
      WrittenAt json.chars key.chars v := by
  refine forall_congr' fun members => forall_congr' fun _ => forall_congr' fun v => forall_congr' fun _ => ?_
  exact (and_congr_right fun _ => every_dstLen_eq).trans both_read_iff

private theorem plain_linux {d : UInt8} (h : unescape d = some (Windows.unescapeChar d)) :
    unescape d = some (Linux.unescapeChar d) := by
  unfold Windows.unescapeChar at h
  unfold Linux.unescapeChar
  split_ifs at h ⊢ with hn ht
  · exact h
  · rw [ht] at h
    exact absurd h (by decide)
  · exact h

/-- Where the first occurrence of the name has white space, a colon, spaces and a string behind it, the string
is extracted exactly if its escapes are of marks, solidi and line feeds. -/
theorem writtenAt_string {json key blanks spaces s v rest : Bytes} {pos : Nat}
    (hlimit : (quotedKey key).length < searchLimit) (hfirst : indexOf (quotedKey key) json = some pos)
    (hbehind : json.drop (pos + (quotedKey key).length) = blanks ++ colon :: (spaces ++ quotationMark :: s))
    (hblanks : ∀ c ∈ blanks, Linux.isBlank c = true) (hspaces : ∀ c ∈ spaces, Windows.isSpaceOrTab c = true)
    (hread : readString .start s = some (v, rest)) :
    WrittenAt json key v ↔ plainEscapes Windows.unescapeChar s = true := by
  have hcolon : colon ∉ blanks := fun hmem => absurd (hblanks colon hmem) (by decide)
  have hwindows : Windows.valuePlace key json = quotationMark :: s := by
    rw [Windows.valuePlace, behindFirst_some hfirst, hbehind, behindFirst_singleton hcolon,
      List.dropWhile_append_of_pos hspaces, List.dropWhile_cons_of_neg (by decide)]
  have hlinux : Linux.valuePlace key json = quotationMark :: s := by
    rw [Linux.valuePlace, if_neg (not_le.mpr hlimit), behindFirst_some hfirst, hbehind,
      List.dropWhile_append_of_pos hblanks, List.dropWhile_cons_of_neg (by decide), behindHead,
      if_pos (decide_eq_true rfl), List.dropWhile_append_of_pos fun c hc => isBlank_of_isSpaceOrTab (hspaces c hc),
      List.dropWhile_cons_of_neg (by decide)]
  have htext := stringText_of_readString hread
  rw [WrittenAt, ← both_read_iff, Windows.jsonGet_eq, findValue_eq, hwindows, hlinux, readFront, readFront,
    if_pos rfl, if_pos rfl, htext.readQuoted_eq_iff, htext.readQuoted_eq_iff]
  exact and_iff_left_of_imp (plainEscapes_mono fun d => plain_linux)

/-- A member of that name is that string. -/
def namesString (json key v : Bytes) : Bool :=
  match flatMembers json with
  | none => false
  | some members => members.any fun m =>
    m.1 = key && match m.2 with
      | .string chars => chars = v
      | _ => false

private theorem mem_of_namesString {json key v : Bytes} (h : namesString json key v = true) :
    ∃ members, flatMembers json = some members ∧ (key, Json.string v) ∈ members := by
  unfold namesString at h
  split at h
  · cases h
  · rename_i members hmembers
    obtain ⟨⟨name, value⟩, hmem, hnamed⟩ := List.any_eq_true.mp h
    rw [Bool.and_eq_true, decide_eq_true_iff] at hnamed
    obtain ⟨rfl, hvalue⟩ := hnamed
    cases value with
    | string chars =>
      obtain rfl := of_decide_eq_true hvalue
      exact ⟨members, hmembers, hmem⟩
    | null | bool | number | array | object => cases hvalue

/-- A line break behind the colon. -/
def brokenLine : CString where
  chars := text "\x7b\"deviceId\":\n\"x\"\x7d"
  noNul := by decide +kernel
  length_lt := by decide +kernel

theorem extractsMember_brokenLine : ¬ ∀ json key : CString, ExtractsMember json key := by
  intro h
  have hkey : 0 ∉ text "deviceId" ∧ (text "deviceId").length < 2 ^ 64 := by decide
  have hnamed : namesString brokenLine.chars (text "deviceId") (text "x") = true := by decide +kernel
  obtain ⟨members, hmembers, hmem⟩ := mem_of_namesString hnamed
  obtain ⟨hread, -⟩ := h brokenLine ⟨text "deviceId", hkey.1, hkey.2⟩ members hmembers (text "x") (.inl hmem)
  have hother : Windows.jsonGet brokenLine.chars (text "deviceId") ≠ text "x" := by decide
  exact hother hread

end Members
end RootHerald
