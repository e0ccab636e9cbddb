import RootHerald.Lib.LenientJson
import RootHerald.Lib.Locators
import RootHerald.Linux.NativeHost
import RootHerald.Windows.JsonHelpers

/-! JsonGet and json_get: each looks for a place in the text, and reads what stands there. -/
namespace RootHerald
open Lib Json Lenient

/-- What both search for. -/
def quotedKey (key : Bytes) : Bytes := quotationMark :: (key ++ [quotationMark])

/-- A string, or a scalar. -/
def isFlat : Json → Bool
  | .array _ | .object _ => false
  | _ => true

/-- The members of an object of strings and scalars. -/
def flatMembers (json : Bytes) : Option (List (Bytes × Json)) :=
  match parse json with
  | some (.object members) => if members.all (isFlat ·.2) then some members else none
  | _ => none

theorem quotedKey_ne (key : Bytes) : quotedKey key ≠ [] := List.cons_ne_nil _ _

namespace Windows

def isSpaceOrTab (c : UInt8) : Bool := c = ' '.toUInt8 || c = '\t'.toUInt8

/-- The character behind a backslash. -/
def unescapeChar (c : UInt8) : UInt8 := if c = 'n'.toUInt8 then newline else c

/-- The text from the value on. -/
def valuePlace (key json : Bytes) : Bytes :=
  (behindFirst [colon] (behindFirst (quotedKey key) json)).dropWhile isSpaceOrTab

theorem unescapeChar_eq_solidus (d : UInt8) : unescapeChar d = reverseSolidus ↔ d = reverseSolidus := by
  unfold unescapeChar
  split_ifs with hn
  · rw [hn]
    exact iff_of_false (by decide) (by decide)
  · exact Iff.rfl

private theorem jsonGetString_eq (s : Bytes) : jsonGetString s = readQuoted unescapeChar s := by
  fun_induction jsonGetString s with
  | case1 => rfl
  | case2 s => exact (readQuoted_mark _ s).symm
  | case3 => rfl
  | case4 d s _ ih => rw [ih]; exact (readQuoted_escaped unescapeChar d s).symm
  | case5 c s hmark hsolidus ih => rw [ih]; exact (readQuoted_plain unescapeChar hmark hsolidus).symm

private theorem jsonGetNested_eq (depth : Nat) (s : Bytes) : jsonGetNested depth s = readBare depth s := by
  induction s generalizing depth with
  | nil => rfl
  | cons c s ih =>
    simp only [jsonGetNested, readBare, ih]
    rfl

theorem jsonGet_eq (json key : Bytes) : jsonGet json key = readFront unescapeChar (valuePlace key json) := by
  have hsearch : quote :: (key ++ [quote]) = quotedKey key := rfl
  have hcolon : [':'.toUInt8] = [colon] := rfl
  have hblank : (fun c : UInt8 => c = ' '.toUInt8 || c = '\t'.toUInt8) = isSpaceOrTab := rfl
  unfold jsonGet
  rw [hsearch, hcolon, hblank, valuePlace]
  dsimp only
  cases hkey : indexOf (quotedKey key) json with
  | none =>
    rw [behindFirst_none hkey, behindFirst_none rfl]
    rfl
  | some pos =>
    rw [behindFirst_some hkey]
    dsimp only
    cases hfirst : indexOf [colon] (json.drop (pos + (quotedKey key).length)) with
    | none =>
      rw [behindFirst_none hfirst]
      rfl
    | some pos' =>
      rw [behindFirst_some hfirst, List.length_singleton]
      dsimp only
      cases ((json.drop (pos + (quotedKey key).length)).drop (pos' + 1)).dropWhile isSpaceOrTab with
      | nil => rfl
      | cons c rest =>
        dsimp only
        rw [readFront, jsonGetString_eq, jsonGetNested_eq]
        rfl

theorem valuePlace_locates (key : Bytes) : Locates (valuePlace key) :=
  ((behindFirst_locates (quotedKey_ne key)).comp (behindFirst_locates (List.cons_ne_nil _ _))).comp
    (Locates.dropWhile isSpaceOrTab)

end Windows

namespace Linux

/-- The text from the value on. -/
def valuePlace (key json : Bytes) : Bytes :=
  if searchLimit ≤ (quotedKey key).length then []
  else (behindHead (· = colon) ((behindFirst (quotedKey key) json).dropWhile isBlank)).dropWhile isBlank

theorem unescapeChar_eq_solidus (d : UInt8) : unescapeChar d = reverseSolidus ↔ d = reverseSolidus := by
  unfold unescapeChar
  split_ifs with hn ht
  · rw [hn]
    exact iff_of_false (by decide) (by decide)
  · rw [ht]
    exact iff_of_false (by decide) (by decide)
  · exact Iff.rfl

private theorem stringValue_eq (s : Bytes) : stringValue s = readQuoted unescapeChar s := by
  fun_induction stringValue s with
  | case1 => rfl
  | case2 s => exact (readQuoted_mark _ s).symm
  | case3 => rfl
  | case4 d s _ ih => rw [ih]; exact (readQuoted_escaped unescapeChar d s).symm
  | case5 c s hmark hsolidus ih => rw [ih]; exact (readQuoted_plain unescapeChar hmark hsolidus).symm

private theorem nestedValue_eq (depth : Nat) (s : Bytes) : nestedValue depth s = readBare depth s := by
  induction s generalizing depth with
  | nil => rfl
  | cons c s ih => simp only [nestedValue, readBare, ih]

theorem findValue_eq (json key : Bytes) : findValue json key = readFront unescapeChar (valuePlace key json) := by
  have hsearch : quotationMark :: (key ++ [quotationMark]) = quotedKey key := rfl
  unfold findValue valuePlace
  rw [hsearch]
  dsimp only
  split_ifs with hlimit
  · rfl
  cases hkey : indexOf (quotedKey key) json with
  | none =>
    rw [behindFirst_none hkey]
    rfl
  | some pos =>
    rw [behindFirst_some hkey]
    dsimp only
    cases (json.drop (pos + (quotedKey key).length)).dropWhile isBlank with
    | nil => rfl
    | cons c rest =>
      by_cases hcolon : c = colon
      · simp only [hcolon, ne_eq, not_true_eq_false, if_false, behindHead, decide_true, if_true]
        cases rest.dropWhile isBlank with
        | nil => rfl
        | cons c rest =>
          dsimp only
          rw [readFront, stringValue_eq, nestedValue_eq]
      · simp only [ne_eq, hcolon, not_false_eq_true, if_true, behindHead, decide_false, Bool.false_eq_true, if_false,
          List.dropWhile_nil, readFront]

theorem valuePlace_locates (key : Bytes) : Locates (valuePlace key) := by
  unfold valuePlace
  split_ifs
  · exact Locates.nothing
  · exact (((behindFirst_locates (quotedKey_ne key)).comp (Locates.dropWhile isBlank)).comp (Locates.behindHead _)).comp
      (Locates.dropWhile isBlank)

end Linux
end RootHerald
