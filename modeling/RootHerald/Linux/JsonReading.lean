import RootHerald.Lib.JsonStrict
import RootHerald.Linux.JsonHelpers

/-! What a reader of RFC 8259 makes of the builder's strings. -/
namespace RootHerald.Linux
open Lib Json

section Strings

theorem quoted_strict (depth : Nat) (v : Bytes) :
    Strict (readValue (depth + 1)) (quoted v) (.string v) (Windows.isText v = true) := by
  have hread : ∀ rest, readString .start ((v.flatMap escapeChar ++ [quotationMark]) ++ rest) =
      if Windows.isText v = true then some (v, rest) else none := by
    intro rest
    rw [List.append_assoc, escapeChar_eq]
    refine (Windows.readString_flatMap_escapeChar .start v rest).trans ?_
    simp only [Windows.isText, Utf8.valid, Bool.and_eq_true, decide_eq_true_eq]
  have hstring : Strict (readString .start) (v.flatMap escapeChar ++ [quotationMark]) v (Windows.isText v = true) := by
    refine ⟨fun htext rest => ?_, fun htext rest => ?_⟩
    · rw [hread, if_pos htext]
    · rw [hread, if_neg htext]
  exact .cons readValue_string (hstring.map Json.string)

theorem isText_of_plain {v : Bytes} (h : ∀ c ∈ v, isPlain c) : Windows.isText v = true := by
  refine Windows.isText_of_ascii fun c hc => ?_
  have hplain := h c hc
  simp only [isPlain, Bool.and_eq_true, decide_eq_true_eq] at hplain
  refine ⟨hplain.1.1.2, ?_⟩
  rw [Windows.isClean, Bool.or_eq_true]
  exact .inl (decide_eq_true hplain.1.1.1)

end Strings

section Parts
variable {depth : Nat} {key : Bytes}

def stringPart (key value : Bytes) : Part := ⟨key, quoted value, .string value, Windows.isText value = true⟩

theorem stringPart_ok (hkey : ∀ c ∈ key, isPlain c) (value : Bytes) : (stringPart key value).Ok (depth + 1) :=
  ⟨hkey, quoted_strict depth value⟩

/-- A value that is known to be read. -/
theorem stringPart_reads {value : Bytes} (h : ∀ c ∈ value, isPlain c) : (stringPart key value).reads :=
  isText_of_plain h

end Parts
end RootHerald.Linux
