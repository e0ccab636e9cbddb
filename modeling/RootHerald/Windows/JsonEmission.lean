import RootHerald.Lib.JsonText
import RootHerald.Windows.Client

/-! What a reader of RFC 8259 gets back from the text of JsonBuild. -/
namespace RootHerald.Windows
open Lib Json

section Strings

/-- A byte that a string may hold: the newline is the one control character that is escaped. -/
def isClean (c : UInt8) : Bool := 0x20 ≤ c || c = newline

/-- UTF-8 without a control character. -/
def isText (v : Bytes) : Bool := Utf8.valid v && v.all isClean

/-- A value that is quoted and that a string can hold. -/
def Plain (v : Bytes) : Prop := isRaw v = false ∧ isText v = true

instance (v : Bytes) : Decidable (Plain v) := inferInstanceAs (Decidable (_ ∧ _))

/-- What one byte adds to the string being read. -/
private theorem readString_escapeChar (s : Utf8.State) (c : UInt8) (rest : Bytes) :
    readString s (escapeChar c ++ rest) =
      if isClean c then (Utf8.next s c).bind fun s => (readString s rest).map (Prod.map (c :: ·) id) else none := by
  by_cases hquote : c = quote
  · subst hquote
    exact readString_escaped (by decide) (by decide) (by decide)
  by_cases hslash : c = backslash
  · subst hslash
    exact readString_escaped (by decide) (by decide) (by decide)
  by_cases hnewline : c = newline
  · subst hnewline
    exact readString_escaped (by decide) (by decide) (by decide)
  rw [escapeChar, if_neg hquote, if_neg hslash, if_neg hnewline, List.singleton_append]
  by_cases hcontrol : 0x20 ≤ c
  · rw [readString_raw hquote hslash hcontrol, if_pos (by simp [isClean, hcontrol])]
  · rw [readString_control (UInt8.not_le.mp hcontrol), if_neg (by simp [isClean, hcontrol, hnewline])]

/-- The escaped text of a value is read back exactly if it is clean and leads to the end of a sequence. -/
theorem readString_flatMap_escapeChar (s : Utf8.State) (v rest : Bytes) :
    readString s (v.flatMap escapeChar ++ quotationMark :: rest) =
      if Utf8.run s v = some .start ∧ v.all isClean then some (v, rest) else none := by
  induction v generalizing s with
  | nil =>
    cases s with
    | start => exact readString_mark rest
    | tail least acc more => exact readString_tail_ascii (by decide)
  | cons c v ih =>
    rw [List.flatMap_cons, List.append_assoc, readString_escapeChar, List.all_cons, Utf8.run]
    by_cases hclean : isClean c = true
    · rw [if_pos hclean]
      cases hnext : Utf8.next s c with
      | none => simp
      | some s' =>
        simp only [Option.bind_some, ih s', hclean, Bool.true_and]
        split_ifs <;> rfl
    · rw [if_neg hclean, if_neg fun h => hclean (Bool.and_eq_true_iff.mp h.2).1]

theorem quoted_exact (depth : Nat) (v : Bytes) :
    Exact (readValue (depth + 1)) (quoted v) (.string v) (isText v = true) := by
  refine .cons readValue_string (.map (fun _ _ => string.inj) ?_)
  have hread : ∀ rest, readString .start ((v.flatMap escapeChar ++ [quote]) ++ rest) =
      if isText v = true then some (v, rest) else none := by
    intro rest
    rw [List.append_assoc]
    refine (readString_flatMap_escapeChar .start v rest).trans ?_
    simp only [isText, Utf8.valid, Bool.and_eq_true, decide_eq_true_eq]
  constructor
  · intro htext rest
    rw [hread, if_pos htext]
  · intro htext rest rest'
    rw [hread, if_neg htext]
    exact fun h => by cases h

/-- What a raw value starts with. -/
def rawStarts : Bytes := [openBrace, openBracket, 't'.toUInt8, 'f'.toUInt8, 'n'.toUInt8]

theorem rawStart_not_whitespace {c : UInt8} (h : c ∈ rawStarts) : isWhitespace c = false := by
  have hall : rawStarts.all (fun c => !isWhitespace c) = true := by decide
  simpa using List.all_eq_true.mp hall c h

theorem isRaw_start {v : Bytes} (h : isRaw v = true) : ∃ c t, v = c :: t ∧ c ∈ rawStarts := by
  simp only [isRaw, Bool.or_eq_true, decide_eq_true_eq] at h
  rcases h with (((h | h) | h) | h) | h
  · obtain ⟨t, rfl⟩ := List.head?_eq_some_iff.mp h
    exact ⟨_, t, rfl, by decide⟩
  · obtain ⟨t, rfl⟩ := List.head?_eq_some_iff.mp h
    exact ⟨_, t, rfl, by decide⟩
  · exact ⟨_, _, h.trans (by decide : text "true" = 't'.toUInt8 :: (text "true").tail), by decide⟩
  · exact ⟨_, _, h.trans (by decide : text "false" = 'f'.toUInt8 :: (text "false").tail), by decide⟩
  · exact ⟨_, _, h.trans (by decide : text "null" = 'n'.toUInt8 :: (text "null").tail), by decide⟩

/-- A field of JsonBuild comes back as the same string exactly if it is plain. -/
theorem jsonValue_exact (depth : Nat) (v : Bytes) :
    Exact (readValue (depth + 1)) (jsonValue v) (.string v) (Plain v) := by
  by_cases hraw : isRaw v = true
  · rw [jsonValue, if_pos hraw]
    refine ⟨fun hplain => absurd (hraw.symm.trans hplain.1) (by decide), fun _ rest rest' heq => ?_⟩
    obtain ⟨c, t, rfl, hc⟩ := isRaw_start hraw
    have hws : isWhitespace c = false := rawStart_not_whitespace hc
    have hquote := readValue_eq_string hws heq
    exact absurd hc (hquote ▸ by decide)
  · rw [jsonValue, if_neg hraw]
    have hexact := quoted_exact depth v
    exact ⟨fun hplain => hexact.reads hplain.2,
      fun hplain => hexact.misreads fun htext => hplain ⟨Bool.eq_false_iff.mpr hraw, htext⟩⟩

end Strings

section Plain

theorem isText_of_ascii {v : Bytes} (h : ∀ c ∈ v, c < 0x80 ∧ isClean c = true) : isText v = true := by
  rw [isText, Utf8.valid_of_ascii fun c hc => (h c hc).1, Bool.true_and, List.all_eq_true]
  exact fun c hc => (h c hc).2

theorem isText_append {v w : Bytes} (hv : isText v = true) : isText (v ++ w) = isText w := by
  unfold isText at hv ⊢
  rw [Bool.and_eq_true] at hv
  rw [Utf8.valid_append hv.1, List.all_append, hv.2, Bool.true_and]

/-- A text that starts with none of these characters is quoted, whatever follows. -/
theorem plain_append {v w : Bytes} (hstart : v.head?.any (· ∉ rawStarts) = true) (hv : isText v = true)
    (hw : isText w = true) : Plain (v ++ w) := by
  refine ⟨Bool.eq_false_iff.mpr fun hraw => ?_, (isText_append hv).trans hw⟩
  obtain ⟨c, t, heq, hc⟩ := isRaw_start hraw
  cases v with
  | nil => cases hstart
  | cons b v =>
    obtain rfl := (List.cons.inj heq).1
    simp [hc] at hstart

theorem plain_decimal (n : Nat) : Plain (decimal n) := by
  have hdigit : ∀ c ∈ decimal n, c ∉ rawStarts ∧ c < 0x80 ∧ isClean c = true := by
    intro c hc
    obtain ⟨v, hv, rfl⟩ := mem_decimal hc
    exact (by decide : ∀ v < 10, hexDigit v ∉ rawStarts ∧ hexDigit v < 0x80 ∧ isClean (hexDigit v) = true) v hv
  refine ⟨Bool.eq_false_iff.mpr fun hraw => ?_, isText_of_ascii fun c hc => (hdigit c hc).2⟩
  obtain ⟨c, t, heq, hc⟩ := isRaw_start hraw
  exact (hdigit c (heq ▸ List.mem_cons_self)).1 hc

theorem isText_base64Encode (data : Bytes) : isText (base64Encode data) = true := by
  rw [base64Encode_eq]
  refine isText_of_ascii fun c hc => Base64.encode_all (p := fun c => c < 0x80 ∧ isClean c = true) ?_ ?_ hc
  · decide
  · decide

theorem plain_derToPem (der : Bytes) : Plain (derToPem der) := by
  rw [derToPem, List.append_assoc]
  exact plain_append (by decide) (by decide)
    ((isText_append (isText_base64Encode der)).trans (by decide))

/-- What base 64 writes as true and as null. -/
def literalBytes : List Bytes := [[0xB6, 0xBB, 0x9E], [0x9E, 0xE9, 0x65]]

theorem plain_base64Encode (data : Bytes) : Plain (base64Encode data) ↔ data ∉ literalBytes := by
  rw [Plain, and_iff_left (isText_base64Encode data), ← not_iff_not, not_not, Bool.not_eq_false]
  constructor
  · intro hraw
    have hdecode : ∀ {v}, base64Encode data = v → Base64.decode v = some data := by
      rintro _ rfl
      rw [base64Encode_eq, Base64.decode_encode]
    have hchar : ∀ {c}, (base64Encode data).head? = some c → c ≠ '{'.toUInt8 ∧ c ≠ '['.toUInt8 := by
      intro c hhead
      obtain ⟨t, ht⟩ := List.head?_eq_some_iff.mp hhead
      have hmem : c ∈ Base64.encode data := by
        rw [← base64Encode_eq, ht]
        exact List.mem_cons_self
      exact Base64.encode_all (p := fun c => c ≠ '{'.toUInt8 ∧ c ≠ '['.toUInt8) (by decide) (by decide) hmem
    simp only [isRaw, Bool.or_eq_true, decide_eq_true_eq] at hraw
    rcases hraw with (((h | h) | h) | h) | h
    · exact absurd rfl (hchar h).1
    · exact absurd rfl (hchar h).2
    · have htrue : Base64.decode (text "true") = some [0xB6, 0xBB, 0x9E] := by decide
      rw [Option.some.inj ((hdecode h).symm.trans htrue)]
      decide
    · have hfalse : Base64.decode (text "false") = none := by decide
      exact absurd ((hdecode h).symm.trans hfalse) (by simp)
    · have hnull : Base64.decode (text "null") = some [0x9E, 0xE9, 0x65] := by decide
      rw [Option.some.inj ((hdecode h).symm.trans hnull)]
      decide
  · intro hmem
    simp only [literalBytes, List.mem_cons, List.not_mem_nil, or_false] at hmem
    rcases hmem with rfl | rfl
    · decide
    · decide

end Plain

section Objects

/-- The object of the fields, with what each value is meant to be. -/
def assembled (meant : Bytes → Bytes → Json) (fields : Fields) : Json :=
  .object (fields.entries.map fun e => (e.1, meant e.1 e.2))

/-- The text of JsonBuild decodes to the assembled object exactly if each of its values does. -/
theorem jsonBuild_exact {depth : Nat} {fields : Fields} {meant : Bytes → Bytes → Json} {P : Bytes × Bytes → Prop}
    (hname : ∀ e ∈ fields.entries, ∀ c ∈ e.1, isPlain c)
    (h : ∀ e ∈ fields.entries, Exact (readValue depth) (jsonValue e.2) (meant e.1 e.2) (P e)) :
    Exact (readValue (depth + 1)) (jsonBuild fields) (assembled meant fields) (∀ e ∈ fields.entries, P e) :=
  object_exact (k := Prod.fst) (t := fun e => jsonValue e.2) (v := fun e => meant e.1 e.2) hname h

/-- Whatever its values, the text of fields is read to a depth of four. -/
theorem parse_jsonBuild_iff {n : Nat} (hn : n ≤ 4) {fields : Fields} {e : Bytes × Bytes} (he : e ∈ fields.entries)
    {v : Json} {P : Prop} (h : ∀ depth, Exact (readValue (depth + n)) (jsonBuild fields) v P) :
    parse (jsonBuild fields) = some v ↔ P := by
  have hlen : 5 ≤ (jsonBuild fields).length :=
    length_objectText (k := e.1) (t := jsonValue e.2) (List.mem_map_of_mem he)
  exact parse_iff (by omega) h

/-- Nested objects and arrays are embedded as they are. -/
theorem jsonValue_openBrace (t : Bytes) : jsonValue (openBrace :: t) = openBrace :: t := rfl

theorem jsonValue_jsonBuild (fields : Fields) : jsonValue (jsonBuild fields) = jsonBuild fields := rfl

theorem jsonValue_openBracket (t : Bytes) : jsonValue (openBracket :: t) = openBracket :: t := rfl

theorem jsonValue_boolText_exact (depth : Nat) (b : Bool) :
    Exact (readValue (depth + 1)) (jsonValue (boolText b)) (.bool b) True := by
  refine ⟨fun _ rest => ?_, fun h => absurd trivial h⟩
  cases b with
  | true =>
    rw [jsonValue, if_pos (by simp [isRaw, boolText])]
    exact readValue_true rest
  | false =>
    rw [jsonValue, if_pos (by simp [isRaw, boolText])]
    exact readValue_false rest

theorem jsonValue_null_exact (depth : Nat) : Exact (readValue (depth + 1)) (jsonValue (text "null")) .null True := by
  refine ⟨fun _ rest => ?_, fun h => absurd trivial h⟩
  rw [jsonValue, if_pos (by simp [isRaw])]
  exact readValue_null rest

theorem jsonValue_pemArray_exact (depth : Nat) (certs : List Bytes) :
    Exact (readValue (depth + 2)) (jsonValue (pemArray certs)) (.array (certs.map fun cert => .string (derToPem cert)))
      True := by
  have hraw : jsonValue (pemArray certs) = arrayText (certs.map fun cert => quoted (derToPem cert)) :=
    jsonValue_openBracket _
  have hexact := array_exact (t := fun cert => quoted (derToPem cert)) (v := fun cert => .string (derToPem cert))
    (P := fun _ => True) (fun cert (_ : cert ∈ certs) => ⟨_, _, rfl, by decide, by decide⟩) fun cert _ =>
      ⟨fun _ => (quoted_exact depth (derToPem cert)).reads (plain_derToPem cert).2, fun h => absurd trivial h⟩
  rw [hraw]
  exact ⟨fun _ => hexact.reads fun _ _ => trivial, fun h => absurd trivial h⟩

end Objects
end RootHerald.Windows
