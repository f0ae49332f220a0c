import Mathlib.Data.List.Basic

/-! JSON texts, and what they are read as: strings with their escapes, numbers as they are
written, and objects with all their members in order. -/

namespace WitcherMP

inductive Json
  | null
  | bool (b : Bool)
  | number (digits : List Char)
  | string (s : List Char)
  | array (items : List Json)
  | object (members : List (List Char × Json))

namespace Json

abbrev Parser (α : Type) := List Char → Option (α × List Char)

def isSpace (c : Char) : Bool := c = ' ' ∨ c = '\t' ∨ c = '\n' ∨ c = '\r'

def skipSpaces (text : List Char) : List Char := text.dropWhile isSpace

def escaped : Char → Option Char
  | '"' => some '"'
  | '\\' => some '\\'
  | '/' => some '/'
  | 'b' => some '\x08'
  | 'f' => some '\x0c'
  | 'n' => some '\n'
  | 'r' => some '\r'
  | 't' => some '\t'
  | _ => none

def hexDigit (c : Char) : Option ℕ :=
  if c.isDigit then some (c.toNat - '0'.toNat)
  else if 'a' ≤ c ∧ c ≤ 'f' then some (c.toNat - 'a'.toNat + 10)
  else if 'A' ≤ c ∧ c ≤ 'F' then some (c.toNat - 'A'.toNat + 10)
  else none

def hex4 : Parser ℕ
  | a :: b :: c :: d :: rest => do
    let a ← hexDigit a
    let b ← hexDigit b
    let c ← hexDigit c
    let d ← hexDigit d
    return (((a * 16 + b) * 16 + c) * 16 + d, rest)
  | _ => none

def parseLow (high : ℕ) (text : List Char) : Option (Char × List Char) := do
  let (low, rest) ← hex4 text
  if 0xDC00 ≤ low ∧ low < 0xE000 then
    some (Char.ofNat (0x10000 + (high - 0xD800) * 0x400 + (low - 0xDC00)), rest)
  else none

def parseUnicode (text : List Char) : Option (Char × List Char) := do
  let (high, rest) ← hex4 text
  if high < 0xD800 ∨ 0xDFFF < high then some (Char.ofNat high, rest)
  else if high < 0xDC00 ∧ rest.take 2 = ['\\', 'u'] then parseLow high (rest.drop 2)
  else none

def parseEscape : Parser Char
  | [] => none
  | c :: rest => if c = 'u' then parseUnicode rest else (escaped c).map (·, rest)

def Raw (c : Char) : Prop := c ≠ '"' ∧ c ≠ '\\' ∧ 0x20 ≤ c.toNat

instance (c : Char) : Decidable (Raw c) := inferInstanceAs (Decidable (_ ∧ _ ∧ _))

def parseChar : Parser Char
  | [] => none
  | c :: rest => if c = '\\' then parseEscape rest else if Raw c then some (c, rest) else none

def parseChars : ℕ → Parser (List Char)
  | 0, _ => none
  | fuel + 1, text =>
    if text.head? = some '"' then some ([], text.tail) else do
    let (c, rest) ← parseChar text
    let (cs, rest) ← parseChars fuel rest
    return (c :: cs, rest)

def parseString (text : List Char) : Option (List Char × List Char) := parseChars text.length text

def parseDigits (text : List Char) : Option (List Char × List Char) :=
  if text.takeWhile Char.isDigit = [] then none
  else some (text.takeWhile Char.isDigit, text.dropWhile Char.isDigit)

def parseFraction : Parser (List Char)
  | [] => some ([], [])
  | c :: rest =>
    if c = '.' then (parseDigits rest).map fun p => ('.' :: p.1, p.2) else some ([], c :: rest)

def parseExponent : Parser (List Char)
  | [] => some ([], [])
  | c :: rest =>
    if c = 'e' ∨ c = 'E' then
      match rest with
      | [] => none
      | sign :: digits =>
        if sign = '+' ∨ sign = '-' then (parseDigits digits).map fun p => (c :: sign :: p.1, p.2)
        else (parseDigits rest).map fun p => (c :: p.1, p.2)
    else some ([], c :: rest)

def parseNumber (text : List Char) : Option (List Char × List Char) := do
  let sign := if text.head? = some '-' then ['-'] else []
  let (whole, rest) ← parseDigits (text.drop sign.length)
  let (fraction, rest) ← parseFraction rest
  let (exponent, rest) ← parseExponent rest
  if whole.head? = some '0' ∧ whole.length ≠ 1 then none
  else some (sign ++ whole ++ fraction ++ exponent, rest)

def parseWord (word : String) (j : Json) : Parser Json := fun text =>
  if word.toList.isPrefixOf text then some (j, text.drop word.length) else none

def parseScalar (text : List Char) : Option (Json × List Char) :=
  (parseWord "null" .null text).or <| (parseWord "true" (.bool true) text).or <|
    (parseWord "false" (.bool false) text).or <|
      (parseNumber text).map fun p => (.number p.1, p.2)

section Items
variable {α : Type} (item : Parser α) (close : Char)

def parseSeq : ℕ → Parser (List α)
  | 0, _ => none
  | fuel + 1, text => do
    let (a, rest) ← item text
    match skipSpaces rest with
    | [] => none
    | c :: rest =>
      if c = close then some ([a], rest)
      else if c = ',' then (parseSeq fuel rest).map fun p => (a :: p.1, p.2)
      else none

def parseItems (text : List Char) : Option (List α × List Char) :=
  match skipSpaces text with
  | [] => none
  | c :: rest => if c = close then some ([], rest) else parseSeq item close text.length text

end Items

def parseBehind {α : Type} (c : Char) (read : Parser α) : Parser α := fun text =>
  match skipSpaces text with
  | [] => none
  | c' :: rest => if c' = c then read rest else none

def parseMember (value : Parser Json) (text : List Char) : Option ((List Char × Json) × List Char) := do
  let (name, rest) ← parseBehind '"' parseString text
  let (j, rest) ← parseBehind ':' value rest
  return ((name, j), rest)

def parseValue : ℕ → Parser Json
  | 0, _ => none
  | fuel + 1, text =>
    match skipSpaces text with
    | [] => none
    | c :: rest =>
      if c = '"' then (parseString rest).map fun p => (.string p.1, p.2)
      else if c = '[' then
        (parseItems (parseValue fuel) ']' rest).map fun p => (.array p.1, p.2)
      else if c = '{' then
        (parseItems (parseMember (parseValue fuel)) '}' rest).map fun p => (.object p.1, p.2)
      else parseScalar (c :: rest)

def parse (text : List Char) : Option Json := do
  let (j, rest) ← parseValue (text.length + 1) text
  if skipSpaces rest = [] then return j else none

end Json
end WitcherMP
