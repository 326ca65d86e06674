import InlineCache.Number.Double

namespace InlineCache

-- Powers of whole numbers are the ones of core, also where another definition of powers is in scope.
attribute [local instance (high)] instPowNat

/-- A positive decimal `0.d₁d₂… * 10 ^ point`, its digits read as one number. -/
structure Decimal where
  digits : Nat
  point : Int
deriving DecidableEq, Inhabited

namespace Decimal

/-- The digits as text, most significant first. -/
def digitChars (d : Decimal) : List Char := Nat.toDigits 10 d.digits

/-- Twice the distances, in half units, from a magnitude to the ends of the reals that round to it:
below and above. They differ at a power of two, where the numbers below are closer together. -/
def roundingReach (m : Magnitude) : Nat × Nat :=
  let gap := 2 ^ droppedBits m.units
  let atPower := m.units / gap = Double.fractionCount ∧ 0 < droppedBits m.units
  (if atPower then gap else 2 * gap, 2 * gap)

/-- Whether both ends of the interval round to the magnitude: ties go to the even digit. -/
def endsIncluded (m : Magnitude) : Bool :=
  m.units / 2 ^ droppedBits m.units % 2 == 0

/-- Whether the decimal `count / 10 ^ places` (a negative number of places multiplies) rounds to the
magnitude. All sides are counted in quarter units over a common denominator. -/
def roundsTo (m : Magnitude) (count : Nat) (places : Int) : Bool :=
  let up := 10 ^ places.toNat
  let down := 10 ^ (-places).toNat
  let value := 4 * count * unitsPerOne * down
  let (below, above) := roundingReach m
  let least := (4 * m.units - below) * up
  let greatest := (4 * m.units + above) * up
  if endsIncluded m then least ≤ value ∧ value ≤ greatest
  else least < value ∧ value < greatest

/-- The position of the decimal point of a positive magnitude: the least power of ten above it. -/
def pointOf (units : Nat) : Int :=
  let estimate := Int.fdiv ((units.log2 - 1074 : Int) * 30103) 100000
  let next := estimate + 1
  if units * 10 ^ (-next).toNat < 10 ^ next.toNat * unitsPerOne then next else next + 1

/-- Of the two neighbours of the magnitude with this many places, one that rounds to it: the nearer
if both do, and of equally near ones the even one or the greater. -/
def candidate? (tieUp : Bool) (m : Magnitude) (places : Int) : Option Nat :=
  let num := m.units * 10 ^ places.toNat
  let den := unitsPerOne * 10 ^ (-places).toNat
  let low := num / den
  let takeHigh := den < 2 * (num % den) ∨ (den = 2 * (num % den) ∧ (tieUp ∨ low % 2 = 1))
  match roundsTo m low places, roundsTo m (low + 1) places with
  | false, false => none
  | true, false => some low
  | false, true => some (low + 1)
  | true, true => some (if takeHigh then low + 1 else low)

/-- Takes away zeros at the end, of which a number of at most `n` digits has fewer than `n`. -/
def stripZeros : Nat → Nat → Nat
  | 0, digits => digits
  | n + 1, digits => if digits ≠ 0 ∧ digits % 10 = 0 then stripZeros n (digits / 10) else digits

/-- The shortest decimal of a positive magnitude: of the decimals that round to it, those with the fewest
digits, and of these the nearest. Seventeen digits always suffice. -/
def shortest (tieUp : Bool) (m : Magnitude) : Decimal :=
  let point := pointOf m.units
  match (List.range' 1 17).findSome? fun (n : Nat) =>
      (candidate? tieUp m ((n : Int) - point)).map fun count => (n, count) with
  | some (n, count) =>
    if count = 10 ^ n then ⟨1, point + 1⟩ else ⟨stripZeros n count, point⟩
  | none => ⟨0, 0⟩

end Decimal

end InlineCache
