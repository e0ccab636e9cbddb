import RootHerald.Lib.Utf8

/-! RFC 8259: the texts that are JSON, and the values they stand for. A string is the bytes of its
characters. -/
namespace RootHerald.Lib

inductive Json
  | null
  | bool (b : Bool)
  | number (lexeme : Bytes)
  | string (chars : Bytes)
  | array (elements : List Json)
  | object (members : List (Bytes × Json))

namespace Json

def quotationMark : UInt8 := 0x22
def reverseSolidus : UInt8 := 0x5C
def comma : UInt8 := 0x2C
def colon : UInt8 := 0x3A
def openBracket : UInt8 := 0x5B
def closeBracket : UInt8 := 0x5D
def openBrace : UInt8 := 0x7B
def closeBrace : UInt8 := 0x7D

def isWhitespace (c : UInt8) : Bool := c = 0x20 || c = 0x09 || c = 0x0A || c = 0x0D

def skip (src : Bytes) : Bytes := src.dropWhile isWhitespace

section Strings

/-- The character behind a reverse solidus. -/
def unescape (c : UInt8) : Option UInt8 :=
  if c = quotationMark ∨ c = reverseSolidus ∨ c = 0x2F then some c
  else if c = 0x62 then some 0x08
  else if c = 0x66 then some 0x0C
  else if c = 0x6E then some 0x0A
  else if c = 0x72 then some 0x0D
  else if c = 0x74 then some 0x09
  else none

def hexValue (c : UInt8) : Option Nat :=
  if 0x30 ≤ c ∧ c ≤ 0x39 then some (c.toNat - 0x30)
  else if 0x41 ≤ c ∧ c ≤ 0x46 then some (c.toNat - 0x41 + 10)
  else if 0x61 ≤ c ∧ c ≤ 0x66 then some (c.toNat - 0x61 + 10)
  else none

/-- Four hexadecimal digits. -/
def codeUnit (h₁ h₂ h₃ h₄ : UInt8) : Option Nat :=
  [h₁, h₂, h₃, h₄].foldlM (fun acc c => (hexValue c).map (acc * 16 + ·)) 0

def isHighSurrogate (u : Nat) : Bool := 0xD800 ≤ u && u < 0xDC00
def isLowSurrogate (u : Nat) : Bool := 0xDC00 ≤ u && u < 0xE000

/-- The bytes of a character. -/
def encodeCodePoint (v : Nat) : Bytes := String.utf8EncodeChar (Char.ofNat v)

/-- The rest of a string and what follows its closing mark, from a state inside a character. -/
def readString : Utf8.State → Bytes → Option (Bytes × Bytes)
  | _, [] => none
  | s, c :: rest =>
    if s = .start ∧ c = quotationMark then some ([], rest)
    else if s = .start ∧ c = reverseSolidus then
      match rest with
      | 0x75 :: h₁ :: h₂ :: h₃ :: h₄ :: rest =>
        (codeUnit h₁ h₂ h₃ h₄).bind fun u =>
          if isHighSurrogate u then
            match rest with
            | 0x5C :: 0x75 :: l₁ :: l₂ :: l₃ :: l₄ :: rest =>
              (codeUnit l₁ l₂ l₃ l₄).bind fun l =>
                if isLowSurrogate l then
                  (readString .start rest).map
                    (Prod.map (encodeCodePoint (0x10000 + (u - 0xD800) * 0x400 + (l - 0xDC00)) ++ ·) id)
                else none
            | _ => none
          else if isLowSurrogate u then none
          else (readString .start rest).map (Prod.map (encodeCodePoint u ++ ·) id)
      | e :: rest => (unescape e).bind fun e => (readString .start rest).map (Prod.map (e :: ·) id)
      | [] => none
    else if s = .start ∧ c < 0x20 then none
    else (Utf8.next s c).bind fun s => (readString s rest).map (Prod.map (c :: ·) id)

end Strings

section Scalars

def isDigit (c : UInt8) : Bool := 0x30 ≤ c && c ≤ 0x39

/-- What follows one digit or more. -/
def digits : Bytes → Option Bytes
  | [] => none
  | c :: rest => if isDigit c then some (rest.dropWhile isDigit) else none

/-- No leading zero. -/
def integer : Bytes → Option Bytes
  | [] => none
  | c :: rest => if c = 0x30 then some rest else digits (c :: rest)

def fraction : Bytes → Option Bytes
  | 0x2E :: rest => digits rest
  | src => some src

def unsignedExponent : Bytes → Option Bytes
  | 0x2B :: rest => digits rest
  | 0x2D :: rest => digits rest
  | src => digits src

def exponent : Bytes → Option Bytes
  | 0x65 :: rest => unsignedExponent rest
  | 0x45 :: rest => unsignedExponent rest
  | src => some src

def unsigned : Bytes → Bytes
  | 0x2D :: rest => rest
  | src => src

def readNumber (src : Bytes) : Option (Json × Bytes) :=
  (((integer (unsigned src)).bind fraction).bind exponent).map fun rest =>
    (.number (src.take (src.length - rest.length)), rest)

def readLiteral (word : Bytes) (v : Json) (src : Bytes) : Option (Json × Bytes) :=
  if word.isPrefixOf src then some (v, src.drop word.length) else none

def readScalar (src : Bytes) : Option (Json × Bytes) :=
  readLiteral (text "null") .null src <|> readLiteral (text "true") (.bool true) src <|>
    readLiteral (text "false") (.bool false) src <|> readNumber src

end Scalars

section Lists
variable {α : Type} (item : Bytes → Option (α × Bytes)) (close : UInt8)

/-- n items at most, commas between them, up to the closing character. -/
def readSeparated : Nat → Bytes → Option (List α × Bytes)
  | 0, _ => none
  | n + 1, src =>
    (item src).bind fun (a, rest) =>
      match skip rest with
      | [] => none
      | c :: rest =>
        if c = close then some ([a], rest)
        else if c = comma then (readSeparated n rest).map (Prod.map (a :: ·) id)
        else none

/-- What stands between brackets. -/
def readList (src : Bytes) : Option (List α × Bytes) :=
  match skip src with
  | [] => none
  | c :: rest => if c = close then some ([], rest) else readSeparated item close src.length src

end Lists

def readMember (value : Bytes → Option (Json × Bytes)) (src : Bytes) : Option ((Bytes × Json) × Bytes) :=
  match skip src with
  | [] => none
  | c :: rest =>
    if c = quotationMark then
      (readString .start rest).bind fun (key, rest) =>
        match skip rest with
        | [] => none
        | c :: rest => if c = colon then (value rest).map (Prod.map (key, ·) id) else none
    else none

/-- A value nested to the depth at most, and what follows it. -/
def readValue : Nat → Bytes → Option (Json × Bytes)
  | 0, _ => none
  | depth + 1, src =>
    match skip src with
    | [] => none
    | c :: rest =>
      if c = quotationMark then (readString .start rest).map (Prod.map .string id)
      else if c = openBracket then (readList (readValue depth) closeBracket rest).map (Prod.map .array id)
      else if c = openBrace then (readList (readMember (readValue depth)) closeBrace rest).map (Prod.map .object id)
      else readScalar (c :: rest)

/-- A whole text. Its length bounds how deep it nests. -/
def parse (src : Bytes) : Option Json :=
  (readValue src.length src).bind fun (v, rest) => if skip rest = [] then some v else none

end Json
end RootHerald.Lib
