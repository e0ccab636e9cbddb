import RootHerald.JsonValues
import RootHerald.Lib.MarkedText
import RootHerald.Linux.EnrollBodies

/-! json_get on an object of strings without anything to escape: each member is read as its value. -/
namespace RootHerald.Linux
open Lib Json Lenient

/-- Names and values that stand for themselves. -/
def PlainMembers (members : Members) : Prop := ∀ m ∈ members, (∀ c ∈ m.1, isPlain c) ∧ ∀ c ∈ m.2, isPlain c

/-- What stands between the quotation marks, behind the first. -/
def segments : Members → List Bytes
  | [] => []
  | m :: members => m.1 :: [colon] :: m.2 :: (if members = [] then [closeBrace] else [comma]) :: segments members

/-- A name that no mark of an object could be taken for. -/
structure IsName (key : Bytes) : Prop where
  plain : ∀ c ∈ key, isPlain c
  length_lt : (quotedKey key).length < searchLimit
  ne_colon : key ≠ [colon]
  ne_comma : key ≠ [comma]

instance (key : Bytes) : Decidable (IsName key) :=
  decidable_of_iff ((∀ c ∈ key, isPlain c) ∧ (quotedKey key).length < searchLimit ∧ key ≠ [colon] ∧ key ≠ [comma])
    ⟨fun ⟨hplain, hlength, hcolon, hcomma⟩ => ⟨hplain, hlength, hcolon, hcomma⟩,
      fun ⟨hplain, hlength, hcolon, hcomma⟩ => ⟨hplain, hlength, hcolon, hcomma⟩⟩

theorem quotationMark_not_mem {v : Bytes} (h : ∀ c ∈ v, isPlain c) : quotationMark ∉ v :=
  fun hmem => absurd (h quotationMark hmem) (by decide)

theorem tailText_marked {members : Members} (hplain : PlainMembers members) (hne : members ≠ []) :
    commaSeparated (members.map fun m => (Entry.string m.1 m.2).text) ++ [closeBrace] =
      marked quotationMark (segments members) := by
  induction members with
  | nil => exact absurd rfl hne
  | cons m members ih =>
    obtain ⟨hm, hmembers⟩ := List.forall_mem_cons.mp hplain
    have hvalue : quoted m.2 = quotationMark :: (m.2 ++ [quotationMark]) := by rw [quoted, flatMap_escapeChar hm.2]
    cases members with
    | nil => simp [segments, marked, commaSeparated_singleton, Entry.text, memberText, hvalue]
    | cons m' members =>
      have ih := ih hmembers (List.cons_ne_nil _ _)
      rw [List.map_cons] at ih
      have hsegments : segments (m :: m' :: members) = m.1 :: [colon] :: m.2 :: [comma] :: segments (m' :: members) := by
        rw [segments, if_neg (List.cons_ne_nil _ _)]
      rw [List.map_cons, List.map_cons, commaSeparated_cons_cons, List.append_assoc, List.cons_append, ih, hsegments]
      simp [marked_cons, Entry.text, memberText, hvalue]

theorem stringsText_marked {members : Members} (hplain : PlainMembers members) (hne : members ≠ []) :
    stringsText members = openBrace :: marked quotationMark (segments members) := by
  rw [stringsText, objectText, tailText_marked hplain hne]

variable {key value : Bytes} {front : Members}

/-- What stands behind the value. -/
def behindValue (back : Members) : List Bytes := (if back = [] then [closeBrace] else [comma]) :: segments back

/-- The members in front are passed over, where neither name nor value is the one looked for. -/
theorem behindFirst_segments (hkey : IsName key) (value : Bytes) (back : Members) (hfront : PlainMembers front)
    (hother : ∀ m ∈ front, m.1 ≠ key ∧ m.2 ≠ key) :
    behindFirst (quotedKey key) (marked quotationMark (segments (front ++ (key, value) :: back))) =
      colon :: marked quotationMark (value :: behindValue back) := by
  have hmark := quotationMark_not_mem hkey.plain
  induction front with
  | nil => exact behindFirst_marked_eq key [colon] _
  | cons m front ih =>
    obtain ⟨hm, hfront⟩ := List.forall_mem_cons.mp hfront
    obtain ⟨⟨hname, hvalue⟩, hother⟩ := List.forall_mem_cons.mp hother
    have hrest : front ++ (key, value) :: back ≠ [] := by simp
    have ih := ih hfront hother
    obtain ⟨s, segs, hsegs⟩ : ∃ s segs, segments (front ++ (key, value) :: back) = s :: segs := by
      obtain ⟨m', rest, hcons⟩ := List.exists_cons_of_ne_nil hrest
      exact ⟨_, _, by rw [hcons, segments]⟩
    rw [List.cons_append, segments, if_neg hrest, ← ih, hsegs]
    have hcolon : quotationMark ∉ [colon] := by decide
    have hcomma : quotationMark ∉ [comma] := by decide
    exact (behindFirst_marked_ne hmark (quotationMark_not_mem hm.1) hname _ _).trans
      ((behindFirst_marked_ne hmark hcolon hkey.ne_colon.symm _ _).trans
        ((behindFirst_marked_ne hmark (quotationMark_not_mem hm.2) hvalue _ _).trans
          (behindFirst_marked_ne hmark hcomma hkey.ne_comma.symm _ _)))

private theorem readQuoted_plainText {v : Bytes} (h : ∀ c ∈ v, isPlain c) (rest : Bytes) :
    readQuoted unescapeChar (v ++ quotationMark :: rest) = v := by
  induction v with
  | nil => exact readQuoted_mark unescapeChar rest
  | cons c v ih =>
    obtain ⟨hc, hv⟩ := List.forall_mem_cons.mp h
    have hmark : c ≠ quotationMark := fun heq => absurd hc (heq ▸ by decide)
    have hsolidus : c ≠ reverseSolidus := fun heq => absurd hc (heq ▸ by decide)
    rw [List.cons_append, readQuoted_plain unescapeChar hmark hsolidus, ih hv]

theorem findValue_stringsText (hkey : IsName key) {back : Members}
    (hplain : PlainMembers (front ++ (key, value) :: back)) (hother : ∀ m ∈ front, m.1 ≠ key ∧ m.2 ≠ key) :
    findValue (stringsText (front ++ (key, value) :: back)) key = value := by
  have hfront : PlainMembers front := fun m hm => hplain m (List.mem_append_left _ hm)
  have hvalue : ∀ c ∈ value, isPlain c := (hplain (key, value) (by simp)).2
  have hbrace : quotationMark ∉ [openBrace] := by decide
  have hbehind : behindFirst (quotedKey key) (stringsText (front ++ (key, value) :: back)) =
      colon :: quotationMark :: (value ++ quotationMark :: _) :=
    calc
      _ = behindFirst (quotedKey key) ([openBrace] ++ marked quotationMark (segments (front ++ (key, value) :: back))) := by
        rw [stringsText_marked hplain (by simp)]
        rfl
      _ = behindFirst (quotedKey key) (marked quotationMark (segments (front ++ (key, value) :: back))) :=
        behindFirst_front hbrace _
      _ = _ := behindFirst_segments hkey value back hfront hother
  rw [findValue_eq, valuePlace, if_neg (not_le.mpr hkey.length_lt), hbehind, List.dropWhile_cons_of_neg (by decide),
    behindHead, if_pos (decide_eq_true rfl), List.dropWhile_cons_of_neg (by decide), readFront, if_pos rfl]
  exact readQuoted_plainText hvalue _

private theorem segments_noNul {members : Members} (h : PlainMembers members) : ∀ s ∈ segments members, 0 ∉ s := by
  have hplain {v : Bytes} (hv : ∀ c ∈ v, isPlain c) : 0 ∉ v := fun hmem => absurd (hv 0 hmem) (by decide)
  induction members with
  | nil => exact fun s hs => by cases hs
  | cons m members ih =>
    obtain ⟨hm, hmembers⟩ := List.forall_mem_cons.mp h
    simp only [segments, List.forall_mem_cons]
    refine ⟨hplain hm.1, by decide, hplain hm.2, ?_, ih hmembers⟩
    split_ifs
    · decide
    · decide

theorem stringsText_noNul {members : Members} (h : PlainMembers members) (hne : members ≠ []) : 0 ∉ stringsText members := by
  rw [stringsText_marked h hne, List.mem_cons, not_or]
  refine ⟨by decide, fun hmem => ?_⟩
  obtain ⟨s, hs, hmem⟩ := List.mem_flatMap.mp hmem
  rcases List.mem_cons.mp hmem with hmark | hmem
  · exact absurd hmark (by decide)
  · exact segments_noNul h s hs hmem

/-- A text that fits the response buffer is there as it was sent. -/
theorem responseText_eq {received : Bytes} (hlength : received.length < responseSize) (hnul : 0 ∉ received) :
    (responseText received).chars = received := by
  change (received.take (responseSize - 1)).takeWhile (· ≠ 0) = received
  rw [List.take_of_length_le (Nat.le_sub_one_of_lt hlength)]
  exact List.takeWhile_eq_self_iff.mpr fun c hc => decide_eq_true (ne_of_mem_of_not_mem hc hnul)

/-- A member of an object that fits the response buffer is read as its value. -/
theorem jsonGet_stringsText {members : Members} (front : Members) {back : Members} (hmembers : members = front ++ (key, value) :: back)
    (hplain : PlainMembers members) (hroom : (stringsText members).length < responseSize) (hkey : IsName key)
    (hother : ∀ m ∈ front, m.1 ≠ key ∧ m.2 ≠ key) {dstLen : Nat} (hlength : value.length < dstLen) :
    (jsonGet (responseText (stringsText members)) key dstLen).chars = value := by
  change (findValue (responseText (stringsText members)).chars key).take (dstLen - 1) = value
  have hne : members ≠ [] := by simp [hmembers]
  rw [responseText_eq hroom (stringsText_noNul hplain hne)]
  subst hmembers
  rw [findValue_stringsText hkey hplain hother]
  exact List.take_of_length_le (Nat.le_sub_one_of_lt hlength)

end RootHerald.Linux
