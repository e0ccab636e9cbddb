import RootHerald.JsonValues

/-! What both extractors make of a response that is cut off. -/
namespace RootHerald
open Lib Json Lenient Linux

/-- The first n bytes, as write_callback leaves them in a full buffer. -/
def cutOff (response : CString) (n : Nat) : CString where
  chars := response.chars.take n
  noNul hmem := response.noNul (List.take_subset _ _ hmem)
  length_lt := (List.length_take_le' _ _).trans_lt response.length_lt

/-- A value of the response that is cut off is missing, or that of the whole response, however large the
destination is. -/
def NeverShortened (response : CString) (n : Nat) (key : Bytes) : Prop :=
  (Windows.jsonGet (cutOff response n).chars key = [] ∨
    Windows.jsonGet (cutOff response n).chars key = Windows.jsonGet response.chars key) ∧
  ∀ dstLen, (jsonGet (cutOff response n) key dstLen).chars = [] ∨
    (jsonGet (cutOff response n) key dstLen).chars = (jsonGet response key dstLen).chars

/-- The cut spares the value that stands at a place of the response. -/
def Spares (response place : Bytes) (n : Nat) : Prop := HarmlessCut place (n - (response.length - place.length))

/-- The destination can be large enough for what there is. -/
private theorem every_dstLen_iff {s t : Bytes} :
    (∀ dstLen : Nat, s.take (dstLen - 1) = [] ∨ s.take (dstLen - 1) = t.take (dstLen - 1)) ↔ (s = [] ∨ s = t) := by
  constructor
  · intro h
    have hall := h (s.length + t.length + 1)
    rw [Nat.add_sub_cancel, List.take_of_length_le (Nat.le_add_right _ _),
      List.take_of_length_le (Nat.le_add_left _ _)] at hall
    exact hall
  · rintro (rfl | rfl) dstLen
    · exact .inl List.take_nil
    · exact .inr rfl

/-- A value is never shortened exactly if the cut spares it, where either extractor finds it. -/
theorem neverShortened_iff (response : CString) (n : Nat) (key : Bytes) :
    NeverShortened response n key ↔
      Spares response.chars (Windows.valuePlace key response.chars) n ∧
        Spares response.chars (Linux.valuePlace key response.chars) n := by
  have hwindows := readFront_take_iff (s := Windows.valuePlace key response.chars)
    (n := n - (response.chars.length - (Windows.valuePlace key response.chars).length)) Windows.unescapeChar_eq_solidus
  have hlinux := readFront_take_iff (s := Linux.valuePlace key response.chars)
    (n := n - (response.chars.length - (Linux.valuePlace key response.chars).length)) Linux.unescapeChar_eq_solidus
  rw [← (Windows.valuePlace_locates key).take_eq, ← Windows.jsonGet_eq, ← Windows.jsonGet_eq] at hwindows
  rw [← (Linux.valuePlace_locates key).take_eq, ← findValue_eq, ← findValue_eq] at hlinux
  exact and_congr hwindows (every_dstLen_iff.trans hlinux)

/-- A device of three letters, whose challenge ends behind the second. -/
def cutChallenge : CString where
  chars := text "\x7b\"deviceId\":\"abc\",\"credentialBlob\":\"QUI=\",\"encryptedSecret\":\"QkE=\"\x7d"
  noNul := by decide +kernel
  length_lt := by decide +kernel

theorem neverShortened_cut : ¬ ∀ response : CString, (flatMembers response.chars).isSome →
    ∀ n < response.chars.length, ∀ key ∈ [text "deviceId", text "credentialBlob", text "encryptedSecret"],
      NeverShortened response n key := by
  intro h
  have hflat : (flatMembers cutChallenge.chars).isSome := by decide +kernel
  obtain ⟨hwindows, -⟩ := h cutChallenge hflat 15 (by decide +kernel) (text "deviceId") List.mem_cons_self
  revert hwindows
  decide +kernel

end RootHerald
