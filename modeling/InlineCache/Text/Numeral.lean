import InlineCache.Number.Double
import InlineCache.Number.Positional
import InlineCache.Text.Blank

namespace InlineCache.Text

/-- The value of a digit in bases up to sixteen. -/
def digitValue? (c : Char) : Option Nat :=
  if '0' ≤ c ∧ c ≤ '9' then some (c.toNat - '0'.toNat)
  else if 'a' ≤ c ∧ c ≤ 'f' then some (c.toNat - 'a'.toNat + 10)
  else if 'A' ≤ c ∧ c ≤ 'F' then some (c.toNat - 'A'.toNat + 10)
  else none

/-- The number that digits of a base denote, continuing from `value`; none if another character is
among them, or if the number does not stay below a limit. -/
def readDigits (base limit : Nat) : List Char → Nat → Option Nat
  | [], value => some value
  | c :: rest, value =>
    match digitValue? c with
    | some d =>
      if d < base ∧ value * base + d < limit then readDigits base limit rest (value * base + d)
      else none
    | none => none

/-- An unsigned number below a limit: one or more digits, after at most one plus sign. -/
def readBounded (base limit : Nat) (s : List Char) : Option Nat :=
  let digits := match s with
    | '+' :: rest => rest
    | _ => s
  if digits.isEmpty then none else readDigits base limit digits 0

/-- The number that decimal digits denote. -/
def decimalValue (digits : List Char) : Nat :=
  Positional.ofDigits 10 (digits.map fun c => c.toNat - '0'.toNat)

/-- A sign, if there is one, taken off the front: whether it was a minus, and the rest. -/
def takeSign : List Char → Bool × List Char
  | '-' :: rest => (true, rest)
  | '+' :: rest => (false, rest)
  | s => (false, s)

/-- The exponent at the end of a decimal: nothing at all, or a mark, a sign and digits. -/
def readExponent : List Char → Option Int
  | [] => some 0
  | mark :: rest =>
    if mark = 'e' ∨ mark = 'E' then
      let (negative, digits) := takeSign rest
      if digits.isEmpty ∨ ¬ digits.all Char.isDigit then none
      else some (if negative then -(decimalValue digits : Int) else decimalValue digits)
    else none

/-- A decimal: digits, of which some may follow a point, at least one in all, then an exponent. -/
def readDecimal (s : List Char) : Option Double :=
  let (negative, s) := takeSign s
  let whole := s.takeWhile Char.isDigit
  let s := s.dropWhile Char.isDigit
  let (fraction, s) := match s with
    | '.' :: rest => (rest.takeWhile Char.isDigit, rest.dropWhile Char.isDigit)
    | _ => ([], s)
  if whole.isEmpty ∧ fraction.isEmpty then none
  else (readExponent s).map fun exponent =>
    Double.ofDecimal negative (decimalValue (whole ++ fraction)) (exponent - fraction.length)

/-- The number that the characters of a string denote, NaN if they denote none. White space around
it is ignored and nothing at all is zero; a hexadecimal number is below `2 ^ 64`. -/
def toDouble (s : List Char) : Double :=
  match trim s with
  | [] => Double.zero
  | '0' :: 'x' :: rest | '0' :: 'X' :: rest =>
    match readBounded 16 0x10000000000000000 rest with
    | some n => Double.ofNat n
    | none => .nan
  | s =>
    if s = "Infinity".toList ∨ s = "+Infinity".toList then .infinite false
    else if s = "-Infinity".toList then .infinite true
    else (readDecimal s).getD .nan

/-- The greatest array length; indices are below it. -/
def indexLimit : Nat := 0xffffffff

/-- The array index that a key names: an unsigned decimal below the limit, which no key of more than
one character that begins with a zero is. -/
def arrayIndex? (key : String) : Option Nat :=
  match key.toList with
  | '0' :: _ :: _ => none
  | s => readBounded 10 indexLimit s

end InlineCache.Text
