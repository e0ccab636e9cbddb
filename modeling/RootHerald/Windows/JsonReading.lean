import RootHerald.Windows.EmittedBodies

/-! What JsonGet finds in the text of JsonBuild. -/
namespace RootHerald.Windows
open Lib

/-- A value that JsonBuild quotes and leaves as it is. -/
def Verbatim (value : Bytes) : Prop := ∀ c ∈ value, c ≠ quote ∧ c ≠ backslash ∧ c ≠ newline

theorem Verbatim.tail {c : UInt8} {value : Bytes} (h : Verbatim (c :: value)) : Verbatim value :=
  fun d hd => h d (List.mem_cons_of_mem c hd)

theorem flatMap_escapeChar {value : Bytes} (h : Verbatim value) : value.flatMap escapeChar = value := by
  induction value with
  | nil => rfl
  | cons c value ih =>
    obtain ⟨hquote, hslash, hnewline⟩ := h c List.mem_cons_self
    rw [List.flatMap_cons, ih h.tail, escapeChar, if_neg hquote, if_neg hslash, if_neg hnewline]
    rfl

theorem jsonGetString_verbatim {value : Bytes} (h : Verbatim value) (tail : Bytes) :
    jsonGetString (value ++ quote :: tail) = value := by
  induction value with
  | nil =>
    rw [List.nil_append, jsonGetString.eq_def]
    exact if_pos rfl
  | cons c value ih =>
    obtain ⟨hquote, hslash, -⟩ := h c List.mem_cons_self
    rw [List.cons_append, jsonGetString.eq_def]
    dsimp only
    rw [if_neg hquote, if_neg hslash, ih h.tail]

private theorem indexOf_behind_brace (key tail : Bytes) :
    indexOf (quote :: (key ++ [quote])) ('{'.toUInt8 :: quote :: (key ++ quote :: tail)) = some 1 := by
  have hsplit : quote :: (key ++ quote :: tail) = (quote :: (key ++ [quote])) ++ tail := by simp
  have hprefix : (quote :: (key ++ [quote])).isPrefixOf (quote :: (key ++ quote :: tail)) = true := by
    rw [hsplit]
    exact List.isPrefixOf_iff_prefix.mpr (List.prefix_append _ _)
  have hbrace : ¬ (quote :: (key ++ [quote])).isPrefixOf ('{'.toUInt8 :: quote :: (key ++ quote :: tail)) = true := by
    rw [List.isPrefixOf, show (quote == '{'.toUInt8) = false by decide, Bool.false_and]
    exact Bool.false_ne_true
  rw [indexOf, if_neg hbrace, indexOf, if_pos hprefix]
  rfl

/-- The first member of an object. -/
theorem jsonGet_first {value : Bytes} (h : Verbatim value) (key tail : Bytes) :
    jsonGet ('{'.toUInt8 :: quote :: (key ++ quote :: ':'.toUInt8 :: quote :: (value ++ quote :: tail))) key = value := by
  have hdrop : ('{'.toUInt8 :: quote :: (key ++ quote :: ':'.toUInt8 :: quote :: (value ++ quote :: tail))).drop
      (1 + (quote :: (key ++ [quote])).length) = ':'.toUInt8 :: quote :: (value ++ quote :: tail) := by
    have hsplit : '{'.toUInt8 :: quote :: (key ++ quote :: ':'.toUInt8 :: quote :: (value ++ quote :: tail)) =
        ('{'.toUInt8 :: quote :: (key ++ [quote])) ++ ':'.toUInt8 :: quote :: (value ++ quote :: tail) := by simp
    rw [hsplit]
    exact List.drop_left' (by simp; omega)
  have hcolon : indexOf [':'.toUInt8] (':'.toUInt8 :: quote :: (value ++ quote :: tail)) = some 0 := by
    rw [indexOf, if_pos (by simp [List.isPrefixOf])]
  simp only [jsonGet, indexOf_behind_brace, hdrop, hcolon, Nat.zero_add, List.drop_succ_cons, List.drop_zero]
  rw [List.dropWhile_cons_of_neg (by decide)]
  exact (if_pos rfl).trans (jsonGetString_verbatim h tail)

private theorem intercalate_cons (sep m : Bytes) (ms : List Bytes) : ∃ tail, sep.intercalate (m :: ms) = m ++ tail := by
  cases ms with
  | nil => exact ⟨[], by simp⟩
  | cons m' ms => exact ⟨sep ++ sep.intercalate (m' :: ms), by simp [List.intercalate]⟩

theorem jsonGet_jsonBuild_first {fields : Fields} {key value : Bytes} {rest : List (Bytes × Bytes)}
    (hfields : fields.entries = (key, value) :: rest) (hraw : isRaw value = false) (h : Verbatim value) :
    jsonGet (jsonBuild fields) key = value := by
  obtain ⟨tail, htail⟩ := intercalate_cons [','.toUInt8] (jsonMember (key, value)) (rest.map jsonMember)
  have hbuild : jsonBuild fields = '{'.toUInt8 :: quote :: (key ++ quote :: ':'.toUInt8 :: quote ::
      (value ++ quote :: (tail ++ ['}'.toUInt8]))) := by
    rw [jsonBuild, hfields, List.map_cons, htail, jsonMember, jsonValue, hraw]
    simp [quoted, flatMap_escapeChar h]
  rw [hbuild]
  exact jsonGet_first h _ _

theorem base64Encode_verbatim (data : Bytes) : Verbatim (base64Encode data) := by
  rw [base64Encode_eq]
  intro c hc
  refine Base64.encode_all (p := fun c => c ≠ quote ∧ c ≠ backslash ∧ c ≠ newline) ?_ ?_ hc
  · decide
  · decide

private theorem akPublicArea_least : ∀ key ∈ [text "ekPublicKey", text "akPublicArea", text "platform", text "ekCertPem",
    text "ekCertificateChain"], ¬ key < text "akPublicArea" := by decide

/-- The public area stands first in the enroll body. -/
theorem jsonGet_akPublicArea (ek : EkEnrollData) {akPub : Bytes} (h : akPub ∉ literalBytes) :
    jsonGet (jsonBuild (buildEnrollFields ek akPub)) (text "akPublicArea") = base64Encode akPub := by
  have hmem : (text "akPublicArea", base64Encode akPub) ∈ (buildEnrollFields ek akPub).entries :=
    mem_buildEnrollFields.mpr (.inl (.inl (List.mem_cons_of_mem _ List.mem_cons_self)))
  have hleast : ∀ e ∈ (buildEnrollFields ek akPub).entries, ¬ e.1 < text "akPublicArea" := by
    intro e he
    simp only [mem_buildEnrollFields, List.mem_cons, List.not_mem_nil, or_false] at he
    apply akPublicArea_least e.1
    rcases he with ((rfl | rfl | rfl) | ⟨-, rfl⟩) | ⟨-, rfl⟩ <;> simp
  obtain ⟨rest, hrest⟩ := OrdMap.entries_of_least hmem hleast
  exact jsonGet_jsonBuild_first hrest ((plain_base64Encode akPub).mpr h).1 (base64Encode_verbatim akPub)

end RootHerald.Windows
