import RootHerald.Lib.Bytes
import RootHerald.Lib.OrdMap

/-! Flat JSON as the Windows client writes and reads it. -/
namespace RootHerald.Windows
open Lib

/-- Fields of an object, in key order. -/
abbrev Fields := OrdMap Bytes Bytes

def quote : UInt8 := '"'.toUInt8
def backslash : UInt8 := '\\'.toUInt8
def newline : UInt8 := '\n'.toUInt8

/-- The three characters that are escaped. -/
def escapeChar (c : UInt8) : Bytes :=
  if c = quote then [backslash, quote]
  else if c = backslash then [backslash, backslash]
  else if c = newline then [backslash, 'n'.toUInt8]
  else [c]

/-- A value that is embedded as it is. -/
def isRaw (value : Bytes) : Bool :=
  value.head? = some '{'.toUInt8 || value.head? = some '['.toUInt8 ||
    value = text "true" || value = text "false" || value = text "null"

def quoted (value : Bytes) : Bytes := quote :: (value.flatMap escapeChar ++ [quote])

def jsonValue (value : Bytes) : Bytes := if isRaw value then value else quoted value

def jsonMember (field : Bytes × Bytes) : Bytes := quote :: (field.1 ++ quote :: ':'.toUInt8 :: jsonValue field.2)

def jsonBuild (fields : Fields) : Bytes :=
  '{'.toUInt8 :: ([','.toUInt8].intercalate (fields.entries.map jsonMember) ++ ['}'.toUInt8])

/-- Up to the closing quote, or the end. -/
def jsonGetString : Bytes → Bytes
  | [] => []
  | c :: rest =>
    if c = quote then []
    else if c = backslash then
      match rest with
      | [] => [c]
      | d :: rest => (if d = 'n'.toUInt8 then newline else d) :: jsonGetString rest
    else c :: jsonGetString rest

/-- A number, bool, null or nested value, up to the end of what encloses it. -/
def jsonGetNested (depth : Nat) : Bytes → Bytes
  | [] => []
  | c :: rest =>
    if c = '{'.toUInt8 ∨ c = '['.toUInt8 then c :: jsonGetNested (depth + 1) rest
    else if c = '}'.toUInt8 ∨ c = ']'.toUInt8 then
      if depth = 0 then [] else c :: jsonGetNested (depth - 1) rest
    else if depth = 0 ∧ c = ','.toUInt8 then []
    else c :: jsonGetNested depth rest

def jsonGet (json key : Bytes) : Bytes :=
  let search := quote :: (key ++ [quote])
  match indexOf search json with
  | none => []
  | some pos =>
    let rest := json.drop (pos + search.length)
    match indexOf [':'.toUInt8] rest with
    | none => []
    | some pos =>
      match (rest.drop (pos + 1)).dropWhile fun c => c = ' '.toUInt8 || c = '\t'.toUInt8 with
      | [] => []
      | c :: rest => if c = quote then jsonGetString rest else jsonGetNested 0 (c :: rest)

end RootHerald.Windows
