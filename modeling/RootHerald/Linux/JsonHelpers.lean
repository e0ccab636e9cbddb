import RootHerald.Lib.Checked
import RootHerald.Lib.JsonEnds
import RootHerald.Windows.JsonEmission

/-! The JSON builder of the Linux programs: members appended to a buffer of fixed size, which is its
text up to the offset. -/
namespace RootHerald.Linux
open Lib Json

section Builder

/-- The three characters that are escaped. -/
def escapeChar (c : UInt8) : Bytes :=
  if c = quotationMark ∨ c = reverseSolidus then [reverseSolidus, c]
  else if c = '\n'.toUInt8 then [reverseSolidus, 'n'.toUInt8]
  else [c]

/-- buf[off++] = c, if the terminator still fits behind it. -/
def appendChar (size : Nat) (buf : Bytes) (c : UInt8) : Bytes := if buf.length + 1 < size then buf ++ [c] else buf

/-- off += n; buf[off] = 0. Where the text is cut the offset leaves the buffer all the same. -/
def snprintf (size : Nat) (buf s : Bytes) : Checked Bytes :=
  if buf.length + s.length < size then .ok (buf ++ s) else .error .outOfBounds

/-- The loop over the value stops where two more characters might not fit. -/
def appendEscaped (size : Nat) (buf : Bytes) : Bytes → Bytes
  | [] => buf
  | c :: value => if buf.length + 2 < size then appendEscaped size (buf ++ escapeChar c) value else buf

def jsonAppendString (size : Nat) (buf key value : Bytes) (isFirst : Bool) : Checked Bytes := do
  let buf := if isFirst then buf else appendChar size buf comma
  let buf ← snprintf size buf (quotationMark :: (key ++ [quotationMark, colon, quotationMark]))
  return appendChar size (appendEscaped size buf value) quotationMark

def jsonAppendRaw (size : Nat) (buf key rawValue : Bytes) (isFirst : Bool) : Checked Bytes := do
  let buf := if isFirst then buf else appendChar size buf comma
  snprintf size buf (quotationMark :: (key ++ quotationMark :: colon :: rawValue))

/-- One call of the builder. -/
inductive Entry where
  | string (key value : Bytes)
  | raw (key rawValue : Bytes)

def Entry.append (size : Nat) (buf : Bytes) (isFirst : Bool) : Entry → Checked Bytes
  | .string key value => jsonAppendString size buf key value isFirst
  | .raw key rawValue => jsonAppendRaw size buf key rawValue isFirst

/-- An opening brace, the entries, the first of them without a comma, and a closing brace. -/
def jsonObject (size : Nat) (first : Entry) (entries : List Entry) : Checked Bytes := do
  let buf ← first.append size [openBrace] true
  let buf ← entries.foldlM (fun buf e => e.append size buf false) buf
  return appendChar size buf closeBrace

end Builder

section Text

theorem escapeChar_eq : escapeChar = Windows.escapeChar := by
  funext c
  unfold escapeChar Windows.escapeChar
  by_cases hquote : c = quotationMark
  · subst hquote
    rfl
  by_cases hsolidus : c = reverseSolidus
  · subst hsolidus
    rfl
  rw [if_neg (not_or.mpr ⟨hquote, hsolidus⟩)]
  exact ((if_neg hquote).trans (if_neg hsolidus)).symm

/-- The text of a string. -/
def quoted (value : Bytes) : Bytes := quotationMark :: (value.flatMap escapeChar ++ [quotationMark])

/-- What an entry writes where there is room. -/
def Entry.text : Entry → Bytes
  | .string key value => memberText key (quoted value)
  | .raw key rawValue => memberText key rawValue

end Text

section Fits
variable {size : Nat} {buf : Bytes}

theorem escapeChar_length_pos (c : UInt8) : 0 < (escapeChar c).length := by
  unfold escapeChar
  split_ifs <;> simp

theorem escapeChar_length_le (c : UInt8) : (escapeChar c).length ≤ 2 := by
  unfold escapeChar
  split_ifs <;> simp

theorem quoted_length_le (v : Bytes) : (quoted v).length ≤ 2 * v.length + 2 := by
  have hle : (v.flatMap escapeChar).length ≤ 2 * v.length := by
    induction v with
    | nil => exact le_refl _
    | cons c v ih =>
      have hle := escapeChar_length_le c
      rw [List.flatMap_cons, List.length_append, List.length_cons]
      omega
  simp only [quoted, List.length_cons, List.length_append, List.length_nil]
  omega

theorem appendEscaped_fits {value : Bytes} (h : (buf ++ value.flatMap escapeChar).length + 1 < size) :
    appendEscaped size buf value = buf ++ value.flatMap escapeChar := by
  induction value generalizing buf with
  | nil => exact (List.append_nil buf).symm
  | cons c value ih =>
    rw [List.flatMap_cons, ← List.append_assoc] at h ⊢
    have hpos := escapeChar_length_pos c
    have hroom : buf.length + 2 < size := by
      simp only [List.length_append] at h
      omega
    rw [appendEscaped, if_pos hroom, ih h]

/-- A value that does not fit with its closing mark leaves at most one character free. -/
theorem appendEscaped_full {value : Bytes} (hbuf : buf.length < size)
    (h : size ≤ (buf ++ value.flatMap escapeChar).length + 1) :
    (appendEscaped size buf value).length < size ∧ size ≤ (appendEscaped size buf value).length + 2 := by
  induction value generalizing buf with
  | nil =>
    rw [List.flatMap_nil, List.append_nil] at h
    exact ⟨hbuf, by rw [appendEscaped]; omega⟩
  | cons c value ih =>
    rw [appendEscaped]
    split_ifs with hroom
    · apply ih
      · have hle := escapeChar_length_le c
        rw [List.length_append]
        omega
      · rwa [List.flatMap_cons, ← List.append_assoc] at h
    · exact ⟨hbuf, not_lt.mp hroom⟩

/-- What is appended of a value is the escaped text of its beginning. -/
theorem appendEscaped_prefix (size : Nat) (buf value : Bytes) :
    ∃ w, w <+: value ∧ appendEscaped size buf value = buf ++ w.flatMap escapeChar := by
  induction value generalizing buf with
  | nil => exact ⟨[], List.nil_prefix, (List.append_nil buf).symm⟩
  | cons c value ih =>
    rw [appendEscaped]
    split_ifs
    · obtain ⟨w, hw, happend⟩ := ih (buf ++ escapeChar c)
      refine ⟨c :: w, List.cons_prefix_cons.mpr ⟨rfl, hw⟩, ?_⟩
      rw [happend, List.flatMap_cons, List.append_assoc]
    · exact ⟨[], List.nil_prefix, (List.append_nil buf).symm⟩

theorem appendChar_fits {c : UInt8} (h : (buf ++ [c]).length < size) : appendChar size buf c = buf ++ [c] :=
  if_pos (by simpa using h)

theorem snprintf_fits {s : Bytes} (h : (buf ++ s).length < size) : snprintf size buf s = .ok (buf ++ s) :=
  if_pos (by simpa using h)

theorem snprintf_full {s : Bytes} (h : size ≤ (buf ++ s).length) : snprintf size buf s = .error .outOfBounds :=
  if_neg (by simpa using h)

/-- The comma in front of every entry but the first. -/
def separator (isFirst : Bool) : Bytes := if isFirst then [] else [comma]

theorem separator_fits {isFirst : Bool} {t : Bytes} (h : (buf ++ separator isFirst ++ t).length < size) :
    (if isFirst then buf else appendChar size buf comma) = buf ++ separator isFirst := by
  cases isFirst with
  | true => exact (List.append_nil buf).symm
  | false =>
    refine appendChar_fits (Nat.lt_of_le_of_lt ?_ h)
    rw [@List.length_append _ (buf ++ separator false)]
    exact Nat.le_add_right _ _

end Fits

section Entries
variable {size : Nat} {buf : Bytes}

/-- A string value as snprintf and the loop write it. -/
private theorem string_text (key value : Bytes) : (Entry.string key value).text =
    (quotationMark :: (key ++ [quotationMark, colon, quotationMark])) ++ value.flatMap escapeChar ++ [quotationMark] := by
  simp [Entry.text, memberText, quoted]

private theorem append_string (key value : Bytes) (isFirst : Bool) :
    (Entry.string key value).append size buf isFirst =
      (snprintf size (if isFirst then buf else appendChar size buf comma)
        (quotationMark :: (key ++ [quotationMark, colon, quotationMark])) >>= fun buf =>
          .ok (appendChar size (appendEscaped size buf value) quotationMark)) :=
  rfl

private theorem append_raw (key rawValue : Bytes) (isFirst : Bool) :
    (Entry.raw key rawValue).append size buf isFirst =
      snprintf size (if isFirst then buf else appendChar size buf comma)
        (quotationMark :: (key ++ quotationMark :: colon :: rawValue)) :=
  rfl

private theorem length_lt_of_append {t : Bytes} (h : (buf ++ t).length < size) : buf.length < size := by
  rw [List.length_append] at h
  omega

theorem Entry.append_fits (e : Entry) {isFirst : Bool} (h : (buf ++ separator isFirst ++ e.text).length < size) :
    e.append size buf isFirst = .ok (buf ++ separator isFirst ++ e.text) := by
  cases e with
  | raw key rawValue =>
    rw [append_raw, separator_fits h]
    exact snprintf_fits h
  | string key value =>
    rw [append_string, separator_fits h]
    rw [string_text, ← List.append_assoc, ← List.append_assoc] at h ⊢
    have hvalue := length_lt_of_append h
    rw [snprintf_fits (length_lt_of_append hvalue), ok_bind]
    rw [appendEscaped_fits (by rw [List.length_append] at h; exact h), appendChar_fits h]

/-- No comma stands in front of the first entry. -/
theorem Entry.append_first (e : Entry) (h : (buf ++ e.text).length < size) :
    e.append size buf true = .ok (buf ++ e.text) := by
  have hsep : buf ++ separator true = buf := List.append_nil buf
  have hwhole : _ → e.append size buf true = .ok (buf ++ separator true ++ e.text) := e.append_fits
  rw [hsep] at hwhole
  exact hwhole h

/-- A buffer that is full up to the place of the terminator, and ends inside the entry. -/
def Cut (size : Nat) (value r : Bytes) : Prop :=
  r.length + 1 = size ∧ ∃ front c, r = front ++ [c] ∧ (c = quotationMark ∨ c ∈ value.flatMap escapeChar)

/-- Without room for the comma there is none for the rest. -/
private theorem snprintf_noComma {s : Bytes} (hs : 1 ≤ s.length) (h : ¬ buf.length + 1 < size) :
    snprintf size (appendChar size buf comma) s = .error .outOfBounds := by
  rw [appendChar, if_neg h]
  exact snprintf_full (by rw [List.length_append]; omega)

private theorem separator_cases (buf : Bytes) (isFirst : Bool) (hbuf : buf.length < size) :
    ((if isFirst then buf else appendChar size buf comma) = buf ++ separator isFirst ∧
        (buf ++ separator isFirst).length < size) ∨
      ∀ s : Bytes, 1 ≤ s.length →
        snprintf size (if isFirst then buf else appendChar size buf comma) s = .error .outOfBounds := by
  cases isFirst with
  | true => exact .inl ⟨(List.append_nil buf).symm, by rw [separator, if_pos rfl, List.append_nil]; exact hbuf⟩
  | false =>
    by_cases hroom : buf.length + 1 < size
    · exact .inl ⟨if_pos hroom, by simpa [separator] using hroom⟩
    · exact .inr fun s hs => snprintf_noComma hs hroom

/-- Behind its opening mark, a value that does not fit with the closing one is cut. -/
private theorem cut_of_full {front value : Bytes} (hroom : (front ++ [quotationMark]).length < size)
    (hfull : size ≤ (front ++ [quotationMark] ++ value.flatMap escapeChar).length + 1) :
    Cut size value (appendChar size (appendEscaped size (front ++ [quotationMark]) value) quotationMark) := by
  obtain ⟨w, ⟨rest, hrest⟩, htail⟩ := appendEscaped_prefix size (front ++ [quotationMark]) value
  have hmem : ∀ c ∈ w.flatMap escapeChar, c ∈ value.flatMap escapeChar := fun c hc => by
    rw [← hrest, List.flatMap_append]
    exact List.mem_append_left _ hc
  obtain ⟨hlt, hle⟩ := appendEscaped_full hroom hfull
  generalize appendEscaped size (front ++ [quotationMark]) value = r at htail hlt hle ⊢
  unfold appendChar
  split_ifs with hquote
  · exact ⟨by rw [List.length_append, List.length_singleton]; omega, r, quotationMark, rfl, .inl rfl⟩
  · refine ⟨by omega, ?_⟩
    rcases List.eq_nil_or_concat (w.flatMap escapeChar) with hnil | ⟨tail, c, htext⟩
    · exact ⟨front, quotationMark, by rw [htail, hnil, List.append_nil], .inl rfl⟩
    · rw [List.concat_eq_append] at htext
      refine ⟨_, c, by rw [htail, htext, ← List.append_assoc], .inr (hmem c ?_)⟩
      rw [htext]
      exact List.mem_append_right _ (List.mem_singleton_self c)

/-- An entry is written whole, or leaves the buffer, or is a string that is cut. -/
theorem Entry.append_cases (e : Entry) (isFirst : Bool) (hbuf : buf.length < size) :
    (e.append size buf isFirst = .ok (buf ++ separator isFirst ++ e.text) ∧
        (buf ++ separator isFirst ++ e.text).length < size) ∨
      e.append size buf isFirst = .error .outOfBounds ∨
      ∃ key value r, e = .string key value ∧ e.append size buf isFirst = .ok r ∧ Cut size value r := by
  by_cases hfits : (buf ++ separator isFirst ++ e.text).length < size
  · exact .inl ⟨e.append_fits hfits, hfits⟩
  refine .inr ?_
  cases e with
  | raw key rawValue =>
    refine .inl ?_
    rw [append_raw]
    rcases separator_cases buf isFirst hbuf with ⟨hsep, -⟩ | hfail
    · rw [hsep]
      exact snprintf_full (not_lt.mp hfits)
    · exact hfail _ (Nat.le_add_left 1 _)
  | string key value =>
    rw [append_string]
    rcases separator_cases buf isFirst hbuf with ⟨hsep, -⟩ | hfail
    swap
    · refine .inl ?_
      rw [hfail _ (Nat.le_add_left 1 _), error_bind]
    have hmark : buf ++ separator isFirst ++ quotationMark :: (key ++ [quotationMark, colon, quotationMark]) =
        (buf ++ separator isFirst ++ quotationMark :: (key ++ [quotationMark, colon])) ++ [quotationMark] := by simp
    rw [string_text, ← List.append_assoc, ← List.append_assoc] at hfits
    rw [hsep]
    by_cases hroom : (buf ++ separator isFirst ++ quotationMark :: (key ++ [quotationMark, colon, quotationMark])).length < size
    swap
    · refine .inl ?_
      rw [snprintf_full (not_lt.mp hroom), error_bind]
    refine .inr ⟨key, value, _, rfl, by rw [snprintf_fits hroom, ok_bind], ?_⟩
    rw [hmark] at hroom hfits ⊢
    apply cut_of_full hroom
    rw [@List.length_append _ _ [quotationMark]] at hfits
    exact not_lt.mp hfits

theorem Entry.append_full (e : Entry) (hbuf : buf.length + 1 = size) : e.append size buf false = .error .outOfBounds := by
  have hroom : ¬ buf.length + 1 < size := by omega
  cases e with
  | string key value =>
    rw [append_string, if_neg Bool.false_ne_true, snprintf_noComma (Nat.le_add_left 1 _) hroom, error_bind]
  | raw key rawValue =>
    rw [append_raw, if_neg Bool.false_ne_true]
    exact snprintf_noComma (Nat.le_add_left 1 _) hroom

/-- What the entries behind the first add. -/
def tailText (entries : List Entry) : Bytes := entries.flatMap fun e => comma :: e.text

private theorem tailText_cons (e : Entry) (entries : List Entry) :
    buf ++ tailText (e :: entries) = buf ++ separator false ++ e.text ++ tailText entries := by
  simp [tailText, separator]

/-- All entries are written whole, or the buffer is left, or the last is a string that is cut. -/
theorem foldlM_append_cases (entries : List Entry) (hbuf : buf.length < size) :
    (entries.foldlM (fun buf e => e.append size buf false) buf = .ok (buf ++ tailText entries) ∧
        (buf ++ tailText entries).length < size) ∨
      entries.foldlM (fun buf e => e.append size buf false) buf = .error .outOfBounds ∨
      ∃ key value r, entries.getLast? = some (.string key value) ∧
        entries.foldlM (fun buf e => e.append size buf false) buf = .ok r ∧ Cut size value r := by
  induction entries generalizing buf with
  | nil => exact .inl ⟨by rw [tailText, List.flatMap_nil, List.append_nil]; rfl, by simpa [tailText] using hbuf⟩
  | cons e entries ih =>
    rw [List.foldlM_cons]
    rcases e.append_cases false hbuf with ⟨hwhole, hlt⟩ | hleft | ⟨key, value, r, rfl, hcut, hr⟩
    · rw [hwhole, ok_bind, tailText_cons]
      rcases ih hlt with h | h | ⟨key, value, r, hlast, h⟩
      · exact .inl h
      · exact .inr (.inl h)
      · refine .inr (.inr ⟨key, value, r, ?_, h⟩)
        rw [List.getLast?_cons, hlast, Option.getD_some]
    · exact .inr (.inl (by rw [hleft, error_bind]))
    · refine .inr ?_
      rw [hcut, ok_bind]
      cases entries with
      | nil => exact .inr ⟨key, value, r, rfl, rfl, hr⟩
      | cons e entries =>
        refine .inl ?_
        rw [List.foldlM_cons, e.append_full hr.1, error_bind]

theorem objectText_entries (first : Entry) (entries : List Entry) :
    objectText ((first :: entries).map Entry.text) = [openBrace] ++ first.text ++ tailText entries ++ [closeBrace] := by
  rw [objectText, List.map_cons, commaSeparated_cons, List.flatMap_map]
  simp [tailText]

private theorem foldlM_append_fits (entries : List Entry) (h : (buf ++ tailText entries).length < size) :
    entries.foldlM (fun buf e => e.append size buf false) buf = .ok (buf ++ tailText entries) := by
  induction entries generalizing buf with
  | nil =>
    rw [tailText, List.flatMap_nil, List.append_nil]
    rfl
  | cons e entries ih =>
    rw [tailText_cons] at h ⊢
    rw [List.foldlM_cons, e.append_fits (length_lt_of_append h), ok_bind]
    exact ih h

theorem objectText_length (first : Entry) (entries : List Entry) :
    (objectText ((first :: entries).map Entry.text)).length =
      first.text.length + (entries.map fun e => e.text.length + 1).sum + 2 := by
  rw [objectText_entries]
  simp only [tailText, List.length_append, List.length_flatMap, List.length_cons, List.length_nil]
  omega

/-- Where there is room for the whole object, it is written. -/
theorem jsonObject_fits {first : Entry} {entries : List Entry}
    (h : (objectText ((first :: entries).map Entry.text)).length < size) :
    jsonObject size first entries = .ok (objectText ((first :: entries).map Entry.text)) := by
  rw [objectText_entries] at h ⊢
  have htail := length_lt_of_append h
  have hfirst := first.append_first (length_lt_of_append htail)
  unfold jsonObject
  rw [hfirst, ok_bind, foldlM_append_fits entries htail, ok_bind, appendChar_fits h]
  rfl

private theorem jsonObject_afterFirst {first : Entry} {entries : List Entry} {r : Bytes}
    (hfirst : first.append size [openBrace] true = .ok r) : jsonObject size first entries =
      entries.foldlM (fun buf e => e.append size buf false) r >>= fun buf => .ok (appendChar size buf closeBrace) := by
  unfold jsonObject
  rw [hfirst, ok_bind]
  rfl

/-- Without room for the closing mark and the brace, at most the mark is written. -/
private theorem appendChar_full (hbuf : buf.length < size) (h : size ≤ buf.length + 2) :
    ∃ mark : Bytes, (mark = [] ∨ mark = [quotationMark]) ∧ (buf ++ mark).length < size ∧
      appendChar size (appendChar size buf quotationMark) closeBrace = buf ++ mark := by
  by_cases hmark : buf.length + 1 < size
  · have hlength : (buf ++ [quotationMark]).length = buf.length + 1 := by rw [List.length_append, List.length_singleton]
    refine ⟨[quotationMark], .inr rfl, by rw [hlength]; exact hmark, ?_⟩
    unfold appendChar
    rw [if_pos hmark, hlength, if_neg (by omega)]
  · refine ⟨[], .inl rfl, by rw [List.append_nil]; exact hbuf, ?_⟩
    unfold appendChar
    rw [if_neg hmark, if_neg hmark, List.append_nil]

/-- An object up to the last value. -/
def lastHead (first : Entry) (entries : List Entry) (key : Bytes) : Bytes :=
  [openBrace] ++ first.text ++ tailText entries ++
    (comma :: quotationMark :: (key ++ [quotationMark, colon, quotationMark]))

/-- Where the last value is what does not fit, a beginning of it is written, and at most its mark. -/
theorem jsonObject_lastCut {first : Entry} {entries : List Entry} {key value : Bytes}
    (hhead : (lastHead first entries key).length < size)
    (h : size ≤ (objectText ((first :: (entries ++ [.string key value])).map Entry.text)).length) :
    ∃ w mark, w <+: value ∧ (mark = [] ∨ mark = [quotationMark]) ∧
      (lastHead first entries key ++ w.flatMap escapeChar ++ mark).length < size ∧
      jsonObject size first (entries ++ [.string key value]) =
        .ok (lastHead first entries key ++ w.flatMap escapeChar ++ mark) := by
  have hentries : ([openBrace] ++ first.text ++ tailText entries).length + 1 < size := by
    rw [lastHead, List.length_append, List.length_cons, List.length_cons] at hhead
    omega
  have hfirst := first.append_first (length_lt_of_append (Nat.lt_of_succ_lt hentries))
  have hlast : (Entry.string key value).append size ([openBrace] ++ first.text ++ tailText entries) false =
      .ok (appendChar size (appendEscaped size (lastHead first entries key) value) quotationMark) := by
    have hsplit : [openBrace] ++ first.text ++ tailText entries ++ [comma] ++
        (quotationMark :: (key ++ [quotationMark, colon, quotationMark])) = lastHead first entries key := by
      simp [lastHead]
    rw [append_string, if_neg Bool.false_ne_true, appendChar, if_pos hentries, snprintf_fits (hsplit ▸ hhead), ok_bind, hsplit]
  obtain ⟨w, hw, hwrite⟩ := appendEscaped_prefix size (lastHead first entries key) value
  have hobject : jsonObject size first (entries ++ [.string key value]) =
      .ok (appendChar size (appendChar size (lastHead first entries key ++ w.flatMap escapeChar) quotationMark) closeBrace) := by
    rw [jsonObject_afterFirst hfirst, List.foldlM_append, foldlM_append_fits entries (Nat.lt_of_succ_lt hentries), ok_bind,
      List.foldlM_cons, hlast, hwrite]
    rfl
  have hfull : (lastHead first entries key ++ w.flatMap escapeChar).length < size ∧
      size ≤ (lastHead first entries key ++ w.flatMap escapeChar).length + 2 := by
    have htotal : size ≤ (lastHead first entries key ++ value.flatMap escapeChar).length + 2 := by
      have hsplit : objectText ((first :: (entries ++ [.string key value])).map Entry.text) =
          lastHead first entries key ++ value.flatMap escapeChar ++ [quotationMark, closeBrace] := by
        rw [objectText_entries]
        simp [lastHead, tailText, Entry.text, memberText, quoted]
      rw [hsplit, @List.length_append _ _ [quotationMark, closeBrace]] at h
      exact h
    by_cases hroom : (lastHead first entries key ++ value.flatMap escapeChar).length + 1 < size
    · rw [← hwrite, appendEscaped_fits hroom]
      exact ⟨Nat.lt_of_succ_lt hroom, htotal⟩
    · rw [← hwrite]
      exact appendEscaped_full hhead (not_lt.mp hroom)
  obtain ⟨mark, hmark, hlength, hclosed⟩ := appendChar_full hfull.1 hfull.2
  exact ⟨w, mark, hw, hmark, hlength, by rw [hobject, hclosed]⟩

/-- Without room for the whole object, whose last entry is a string, the buffer is left, or ends
inside that string. -/
theorem jsonObject_full {first : Entry} {entries : List Entry} {key value : Bytes} (hsize : 1 < size)
    (h : size ≤ (objectText ((first :: (entries ++ [.string key value])).map Entry.text)).length) :
    jsonObject size first (entries ++ [.string key value]) = .error .outOfBounds ∨
      ∃ front c, jsonObject size first (entries ++ [.string key value]) = .ok (front ++ [c]) ∧
        (c = quotationMark ∨ c ∈ value.flatMap escapeChar) := by
  rw [objectText_entries] at h
  have hfull : ∀ {buf : Bytes}, size ≤ buf.length + 1 → appendChar size buf closeBrace = buf :=
    fun h => if_neg (not_lt.mpr h)
  rcases first.append_cases true (show [openBrace].length < size from hsize) with ⟨hwhole, hlt⟩ | hleft | ⟨key', value', r, -, hcut, hr⟩
  · rw [separator, if_pos rfl, List.append_nil] at hwhole hlt
    rw [jsonObject_afterFirst hwhole]
    rcases foldlM_append_cases (entries ++ [.string key value]) hlt with ⟨hall, -⟩ | hleft | ⟨key', value', r, hlast, hcut, hr⟩
    · refine .inr ⟨[openBrace] ++ first.text ++ tailText entries ++ (comma :: quotationMark :: (key ++
        quotationMark :: colon :: quotationMark :: value.flatMap escapeChar)), quotationMark, ?_, .inl rfl⟩
      rw [hall, ok_bind, hfull (by rw [@List.length_append _ _ [closeBrace]] at h; exact h)]
      simp [tailText, Entry.text, memberText, quoted]
    · exact .inl (by rw [hleft, error_bind])
    · rw [List.getLast?_append, List.getLast?_singleton, Option.some_or] at hlast
      obtain ⟨rfl, rfl⟩ := Entry.string.inj (Option.some.inj hlast)
      obtain ⟨hlength, front, c, rfl, hc⟩ := hr
      refine .inr ⟨front, c, ?_, hc⟩
      rw [hcut, ok_bind, hfull (le_of_eq hlength.symm)]
  · refine .inl ?_
    unfold jsonObject
    rw [hleft, error_bind]
  · refine .inl ?_
    rw [jsonObject_afterFirst hcut]
    cases entries with
    | nil => rw [List.nil_append, List.foldlM_cons, Entry.append_full _ hr.1, error_bind, error_bind]
    | cons e entries => rw [List.cons_append, List.foldlM_cons, e.append_full hr.1, error_bind, error_bind]

end Entries
end RootHerald.Linux
