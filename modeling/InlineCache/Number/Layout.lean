import InlineCache.Number.Shortest

namespace InlineCache

-- Powers of whole numbers are the ones of core, also where another definition of powers is in scope.
attribute [local instance (high)] instPowNat

/-- How a shortest decimal is written: with a point, or with an exponent. -/
structure DecimalLayout where
  /-- Positions of the decimal point written positionally; others take an exponent. -/
  leastPoint : Int
  greatestPoint : Int
  /-- What follows a whole number written positionally. -/
  wholeEnd : String
  /-- Whether a decimal halfway between two goes to the greater one, rather than the even one. -/
  tieUp : Bool

namespace DecimalLayout

/-- A number with an exponent has one digit before its point, and the exponent no plus sign. -/
def withExponent (digits : List Char) (point : Int) : List Char :=
  let exponent := 'e' :: (toString (point - 1)).toList
  match digits with
  | [] => exponent
  | [d] => d :: exponent
  | d :: rest => d :: '.' :: (rest ++ exponent)

/-- The digits with a point put in at its position, filled up with zeros on either side. -/
def positional (layout : DecimalLayout) (digits : List Char) (point : Int) : List Char :=
  if point ≤ 0 then '0' :: '.' :: (List.replicate (-point).toNat '0' ++ digits)
  else if digits.length ≤ point.toNat then
    digits ++ List.replicate (point.toNat - digits.length) '0' ++ layout.wholeEnd.toList
  else digits.take point.toNat ++ '.' :: digits.drop point.toNat

def write (layout : DecimalLayout) (d : Decimal) : List Char :=
  if layout.leastPoint ≤ d.point ∧ d.point ≤ layout.greatestPoint then
    layout.positional d.digitChars d.point
  else withExponent d.digitChars d.point

end DecimalLayout

namespace Double

/-- Scripts see at most sixteen places before the point and four zeros after it. -/
def scriptLayout : DecimalLayout := ⟨-4, 16, "", false⟩

/-- Where representations matter, a whole number keeps a zero after its point. -/
def debugLayout : DecimalLayout := ⟨-3, 16, ".0", true⟩

/-- Whole numbers below this magnitude are written out digit by digit. -/
def wholeTextLimit : Nat := 9 * 10 ^ (18 : Nat)

def signChars (negative : Bool) : List Char := if negative then ['-'] else []

/-- The text of a number in a script. Negative zero is written without its sign. -/
def scriptText : Double → String
  | .nan => "NaN"
  | .infinite negative => if negative then "-Infinity" else "Infinity"
  | .finite negative m =>
    let x := Double.finite negative m
    if x.isIntegral ∧ m.units < wholeTextLimit * unitsPerOne then toString x.truncate
    else String.ofList (signChars negative ++ scriptLayout.write (Decimal.shortest scriptLayout.tieUp m))

/-- The text of a number in a representation: every number has a point or an exponent, and zero
keeps its sign. -/
def debugText : Double → String
  | .nan => "NaN"
  | .infinite negative => if negative then "-inf" else "inf"
  | .finite negative m =>
    String.ofList (signChars negative ++
      if m.units = 0 then ['0', '.', '0']
      else debugLayout.write (Decimal.shortest debugLayout.tieUp m))

end Double

end InlineCache
