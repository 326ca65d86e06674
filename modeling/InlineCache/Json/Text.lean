import InlineCache.Json.Basic
import InlineCache.Text.Numeral

namespace InlineCache.Json

/-- White space of the format. -/
def isSpace (c : Char) : Bool := c = ' ' || c = '\t' || c = '\n' || c = '\r'

def skipSpace (s : List Char) : List Char := s.dropWhile isSpace

/-- The character that an escape of one letter stands for. -/
def simpleEscape? : Char → Option Char
  | '"' => some '"'
  | '\\' => some '\\'
  | '/' => some '/'
  | 'b' => some '\x08'
  | 'f' => some '\x0c'
  | 'n' => some '\n'
  | 'r' => some '\r'
  | 't' => some '\t'
  | _ => none

/-- A part of a string: a character, or a UTF-16 unit given by its number. -/
inductive Piece where
  | char (c : Char)
  | unit (n : Nat)

/-- The parts of a string up to its closing quote, and what follows the quote. -/
def pieces? : List Char → Option (List Piece × List Char)
  | [] => none
  | '"' :: rest => some ([], rest)
  | '\\' :: 'u' :: a :: b :: c :: d :: rest => do
    let n ← Text.readDigits 16 0x10000 [a, b, c, d] 0
    let (more, rest) ← pieces? rest
    return (.unit n :: more, rest)
  | '\\' :: e :: rest => do
    let c ← simpleEscape? e
    let (more, rest) ← pieces? rest
    return (.char c :: more, rest)
  | c :: rest =>
    if c.toNat < 0x20 then none
    else do
      let (more, rest) ← pieces? rest
      return (.char c :: more, rest)

/-- The text of the parts; none if half of a surrogate pair stands alone. -/
def pieceText? : List Piece → Option (List Char)
  | [] => some []
  | .char c :: rest => (pieceText? rest).map (c :: ·)
  | .unit high :: .unit low :: rest =>
    if 0xd800 ≤ high ∧ high < 0xdc00 then
      if 0xdc00 ≤ low ∧ low < 0xe000 then
        (pieceText? rest).map
          (Char.ofNat (0x10000 + (high - 0xd800) * 0x400 + (low - 0xdc00)) :: ·)
      else none
    else if 0xdc00 ≤ high ∧ high < 0xe000 then none
    else (pieceText? (.unit low :: rest)).map (Char.ofNat high :: ·)
  | .unit n :: rest =>
    if 0xd800 ≤ n ∧ n < 0xe000 then none else (pieceText? rest).map (Char.ofNat n :: ·)

/-- A string after its opening quote. -/
def parseString? (s : List Char) : Option (Option String × List Char) := do
  let (parts, rest) ← pieces? s
  return ((pieceText? parts).map String.ofList, rest)

/-- One or more digits, and what follows them. -/
def takeDigits? (s : List Char) : Option (List Char × List Char) :=
  match s.takeWhile Char.isDigit with
  | [] => none
  | digits => some (digits, s.dropWhile Char.isDigit)

/-- The fraction and the exponent of a number, as far as there are any: whether there was one, and
what follows. -/
def numberTail? (s : List Char) : Option (Bool × List Char) := do
  let (hasFraction, s) ← match s with
    | '.' :: rest => (takeDigits? rest).map fun (_, rest) => (true, rest)
    | _ => some (false, s)
  match s with
  | mark :: rest =>
    if mark = 'e' ∨ mark = 'E' then
      let (_, rest) ← takeDigits? (Text.takeSign rest).2
      return (true, rest)
    else return (hasFraction, s)
  | [] => return (hasFraction, s)

/-- A number; its whole part has no leading zero. -/
def parseNumber? (s : List Char) : Option (Json × List Char) := do
  let (negative, s) := match s with
    | '-' :: rest => (true, rest)
    | _ => (false, s)
  let (digits, s) ← takeDigits? s
  if digits.head? = some '0' ∧ digits.length ≠ 1 then none
  let value := Text.decimalValue digits
  let (hasTail, s) ← numberTail? s
  return (if hasTail || (negative && value == 0) then .otherNumber
    else .integer (if negative then -value else value), s)

/-- Takes an expected word off the front. -/
def expect? (word : String) (s : List Char) : Option (List Char) :=
  if word.toList.isPrefixOf s then some (s.drop word.length) else none

mutual

/-- A value at the front of the text, with at most `fuel` values and punctuation marks in it. -/
def parseValue? : Nat → List Char → Option (Json × List Char)
  | 0, _ => none
  | fuel + 1, s =>
    match skipSpace s with
    | '"' :: rest => do
      let (t, rest) ← parseString? rest
      return (.string t, rest)
    | '[' :: rest =>
      match skipSpace rest with
      | ']' :: rest => some (.array [], rest)
      | rest => do
        let (items, rest) ← parseItems? fuel rest
        return (.array items, rest)
    | '\x7b' :: rest =>
      match skipSpace rest with
      | '\x7d' :: rest => some (.object [], rest)
      | rest => do
        let (members, rest) ← parseMembers? fuel rest
        return (.object members, rest)
    | 'n' :: rest => (expect? "ull" rest).map fun rest => (.null, rest)
    | 't' :: rest => (expect? "rue" rest).map fun rest => (.bool true, rest)
    | 'f' :: rest => (expect? "alse" rest).map fun rest => (.bool false, rest)
    | rest => parseNumber? rest

/-- The items of an array up to its end. -/
def parseItems? : Nat → List Char → Option (List Json × List Char)
  | 0, _ => none
  | fuel + 1, s => do
    let (item, rest) ← parseValue? fuel s
    match skipSpace rest with
    | ',' :: rest =>
      let (items, rest) ← parseItems? fuel rest
      return (item :: items, rest)
    | ']' :: rest => return ([item], rest)
    | _ => none

/-- The members of an object up to its end. -/
def parseMembers? : Nat → List Char → Option (List (Option String × Json) × List Char)
  | 0, _ => none
  | fuel + 1, s =>
    match skipSpace s with
    | '"' :: rest => do
      let (name, rest) ← parseString? rest
      match skipSpace rest with
      | ':' :: rest =>
        let (value, rest) ← parseValue? fuel rest
        match skipSpace rest with
        | ',' :: rest =>
          let (members, rest) ← parseMembers? fuel rest
          return ((name, value) :: members, rest)
        | '\x7d' :: rest => return ([(name, value)], rest)
        | _ => none
      | _ => none
    | _ => none

end

/-- The value that a whole text spells. Every step into a value takes a character off the text, so its
length bounds their number. -/
def parse? (s : String) : Option Json :=
  match parseValue? (2 * s.length + 1) s.toList with
  | some (value, rest) => if (skipSpace rest).isEmpty then some value else none
  | none => none

/-- A character in a string: only quotes, backslashes and controls are escaped. -/
def escapeChar (c : Char) : List Char :=
  match c with
  | '"' => ['\\', '"']
  | '\\' => ['\\', '\\']
  | '\x08' => ['\\', 'b']
  | '\x0c' => ['\\', 'f']
  | '\n' => ['\\', 'n']
  | '\r' => ['\\', 'r']
  | '\t' => ['\\', 't']
  | _ =>
    if c.toNat < 0x20 then
      '\\' :: 'u' :: '0' :: '0' :: Nat.digitChar (c.toNat / 16) :: [Nat.digitChar (c.toNat % 16)]
    else [c]

def renderString (s : String) : List Char := '"' :: (s.toList.flatMap escapeChar ++ ['"'])

/-- Puts commas between texts. -/
def commaSeparated : List (List Char) → List Char
  | [] => []
  | [s] => s
  | s :: rest => s ++ ',' :: commaSeparated rest

mutual

/-- The text without blanks. Strings that are no text, and numbers without a value, are shown as
`null`. -/
def renderChars : Json → List Char
  | .null | .otherNumber | .string none => "null".toList
  | .bool b => (toString b).toList
  | .integer n => (toString n).toList
  | .string (some s) => renderString s
  | .array items => '[' :: (commaSeparated (renderItems items) ++ [']'])
  | .object members => '\x7b' :: (commaSeparated (renderMembers members) ++ ['\x7d'])

def renderItems : List Json → List (List Char)
  | [] => []
  | item :: rest => renderChars item :: renderItems rest

def renderMembers : List (Option String × Json) → List (List Char)
  | [] => []
  | (name, value) :: rest =>
    (renderString (name.getD "") ++ ':' :: renderChars value) :: renderMembers rest

end

def render (j : Json) : String := String.ofList (renderChars j)

end InlineCache.Json
