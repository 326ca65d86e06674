namespace InlineCache

-- Powers of whole numbers are the ones of core, also where another definition of powers is in scope.
attribute [local instance (high)] instPowNat

/-- The nearest whole number to `num / den`; a tie goes to the even neighbour. -/
def roundDiv (num den : Nat) : Nat :=
  if 2 * (num % den) < den then num / den
  else if den < 2 * (num % den) then num / den + 1
  else num / den + num / den % 2

theorem roundDiv_le (num den : Nat) : roundDiv num den ≤ num / den + 1 := by
  unfold roundDiv
  split
  · omega
  · split <;> omega

private theorem roundDiv_mul_cancel (k : Nat) {den : Nat} (h : 0 < den) :
    roundDiv (k * den) den = k := by
  simp [roundDiv, Nat.mul_div_cancel _ h, h]

/-- The number of units in one. -/
def unitsPerOne : Nat := 2 ^ (1074 : Nat)

/-- The first magnitude, in units, that is past the range of the format. -/
def unitsLimit : Nat := 2 ^ (2098 : Nat)

/-- How many low binary digits a magnitude of 53 significant digits leaves out. -/
def droppedBits (units : Nat) : Nat := units.log2 - 52

/-- A magnitude fits when its binary digits past the first 53 are all zero. -/
def Fits (units : Nat) : Prop := 2 ^ droppedBits units ∣ units

instance (units : Nat) : Decidable (Fits units) := inferInstanceAs (Decidable (_ ∣ _))

/-- The magnitude that fits nearest to `num / den` units. -/
def roundUnits (num den : Nat) : Nat :=
  roundDiv num (den * 2 ^ droppedBits (num / den)) * 2 ^ droppedBits (num / den)

theorem lt_two_pow_droppedBits (units : Nat) : units < 2 ^ (53 + droppedBits units) := by
  by_cases h : units = 0
  · subst h; exact Nat.two_pow_pos _
  · rw [← Nat.log2_lt h, droppedBits]; omega

theorem fits_mul_two_pow {r : Nat} (h : r ≤ 2 ^ (53 : Nat)) (s : Nat) : Fits (r * 2 ^ s) := by
  unfold Fits droppedBits
  rcases Nat.eq_zero_or_pos r with h0 | hpos
  · subst h0; simp
  rcases Nat.lt_or_eq_of_le h with hlt | heq
  · have hne : r * 2 ^ s ≠ 0 := Nat.pos_iff_ne_zero.1 (Nat.mul_pos hpos (Nat.two_pow_pos s))
    have hlog : (r * 2 ^ s).log2 < 53 + s := by
      rw [Nat.log2_lt hne, Nat.pow_add]
      exact Nat.mul_lt_mul_of_pos_right hlt (Nat.two_pow_pos s)
    exact Nat.dvd_mul_left_of_dvd (Nat.pow_dvd_pow 2 (by omega)) r
  · subst heq
    rw [← Nat.pow_add, Nat.log2_two_pow]
    exact Nat.pow_dvd_pow 2 (by omega)

/-- Rounding gives a magnitude that fits. -/
theorem fits_roundUnits (num den : Nat) : Fits (roundUnits num den) := by
  refine fits_mul_two_pow (Nat.le_trans (roundDiv_le _ _) ?_) _
  rw [← Nat.div_div_eq_div_mul]
  refine Nat.succ_le_of_lt (Nat.div_lt_of_lt_mul ?_)
  rw [← Nat.pow_add, Nat.add_comm]
  exact lt_two_pow_droppedBits _

/-- A magnitude that fits is its own rounding. -/
theorem roundUnits_eq_of_fits {units : Nat} (h : Fits units) : roundUnits units 1 = units := by
  obtain ⟨k, hk⟩ := h
  have hpos : 0 < 2 ^ droppedBits units := Nat.two_pow_pos _
  rw [roundUnits, Nat.div_one, Nat.one_mul]
  conv => lhs; arg 1; arg 1; rw [hk, Nat.mul_comm]
  rw [roundDiv_mul_cancel k hpos, Nat.mul_comm]
  exact hk.symm

/-- The magnitude of a finite number, in units of `2 ^ -1074`, the distance between the two smallest ones. -/
structure Magnitude where
  units : Nat
  fits : Fits units
  lt_limit : units < unitsLimit
deriving DecidableEq

/-- A binary64 number. There is one NaN. Every operation computes its exact result in integers and rounds
once, to the nearest number, a tie to the even digit; so a result that fits is exact
(`roundUnits_eq_of_fits`). -/
inductive Double where
  | nan
  | infinite (negative : Bool)
  | finite (negative : Bool) (magnitude : Magnitude)
deriving DecidableEq

namespace Double

/-- The number nearest to `num / den` units, infinite past the range. -/
def ofRatio (negative : Bool) (num den : Nat) : Double :=
  if h : roundUnits num den < unitsLimit then
    .finite negative ⟨roundUnits num den, fits_roundUnits num den, h⟩
  else .infinite negative

/-- The number nearest to a whole number of units. -/
def ofUnits (negative : Bool) (units : Nat) : Double := ofRatio negative units 1

theorem ofUnits_magnitude (negative : Bool) (m : Magnitude) :
    ofUnits negative m.units = .finite negative m := by
  have h := roundUnits_eq_of_fits m.fits
  simp [ofUnits, ofRatio, h, m.lt_limit]

/-- Positive zero. -/
def zero : Double := ofUnits false 0

instance : Inhabited Double := ⟨zero⟩

def ofInt (n : Int) : Double := ofUnits (n < 0) (n.natAbs * unitsPerOne)

def ofNat (n : Nat) : Double := ofUnits false (n * unitsPerOne)

/-- The number nearest to `digits * 10 ^ exponent`. Exponents far out of range are answered without
computing the power: there are no more decimal digits than binary ones. -/
def ofDecimal (negative : Bool) (digits : Nat) (exponent : Int) : Double :=
  if digits = 0 ∨ exponent + digits.log2 < -400 then ofUnits negative 0
  else if 400 < exponent then .infinite negative
  else if 0 ≤ exponent then ofUnits negative (digits * 10 ^ exponent.toNat * unitsPerOne)
  else ofRatio negative (digits * unitsPerOne) (10 ^ (-exponent).toNat)

/-- The number of fractions that share a sign and an exponent in the interchange encoding. -/
def fractionCount : Nat := 2 ^ (52 : Nat)

/-- The weight of the sign bit in the interchange encoding. -/
def signWeight : Nat := 2 ^ (63 : Nat)

/-- The number with the given sign bit, exponent field and fraction field. -/
def ofBits (bits : UInt64) : Double :=
  let negative := bits.toNat / signWeight % 2 = 1
  let field := bits.toNat / fractionCount % 2048
  let fraction := bits.toNat % fractionCount
  if field = 2047 then if fraction = 0 then .infinite negative else .nan
  else if field = 0 then ofUnits negative fraction
  else ofUnits negative ((fractionCount + fraction) * 2 ^ (field - 1))

/-- The interchange encoding. The exponent field counts the dropped binary digits, so for a normal
magnitude its hidden leading digit carries into the field. -/
def toBits : Double → UInt64
  | .nan => 0x7ff8000000000000
  | .infinite negative => UInt64.ofNat ((if negative then signWeight else 0) + 2047 * fractionCount)
  | .finite negative m =>
    let dropped := droppedBits m.units
    UInt64.ofNat
      ((if negative then signWeight else 0) + dropped * fractionCount + m.units / 2 ^ dropped)

def isNaN : Double → Bool
  | .nan => true
  | _ => false

def isFinite : Double → Bool
  | .finite _ _ => true
  | _ => false

/-- The sign, which zeros and infinities have too. -/
def isNegative : Double → Bool
  | .nan => false
  | .infinite negative | .finite negative _ => negative

/-- Zero of either sign. -/
def isZero : Double → Bool
  | .finite _ m => m.units == 0
  | _ => false

/-- A finite number's value in units, signed. -/
def signedUnits (negative : Bool) (m : Magnitude) : Int :=
  if negative then -m.units else m.units

protected def neg : Double → Double
  | .nan => .nan
  | .infinite negative => .infinite (!negative)
  | .finite negative m => .finite (!negative) m

instance : Neg Double := ⟨Double.neg⟩

/-- A sum of zero is negative only if both terms are. -/
protected def add : Double → Double → Double
  | .nan, _ | _, .nan => .nan
  | .infinite a, .infinite b => if a = b then .infinite a else .nan
  | .infinite a, .finite _ _ => .infinite a
  | .finite _ _, .infinite b => .infinite b
  | .finite a m, .finite b n =>
    let sum := signedUnits a m + signedUnits b n
    if sum = 0 then ofUnits (a && b) 0 else ofUnits (sum < 0) sum.natAbs

instance : Add Double := ⟨Double.add⟩

instance : Sub Double := ⟨fun x y => x + -y⟩

protected def mul : Double → Double → Double
  | .nan, _ | _, .nan => .nan
  | .infinite a, .infinite b => .infinite (a ^^ b)
  | .infinite a, .finite b n => if n.units = 0 then .nan else .infinite (a ^^ b)
  | .finite a m, .infinite b => if m.units = 0 then .nan else .infinite (a ^^ b)
  | .finite a m, .finite b n => ofRatio (a ^^ b) (m.units * n.units) unitsPerOne

instance : Mul Double := ⟨Double.mul⟩

protected def div : Double → Double → Double
  | .nan, _ | _, .nan => .nan
  | .infinite _, .infinite _ => .nan
  | .infinite a, .finite b _ => .infinite (a ^^ b)
  | .finite a _, .infinite b => ofUnits (a ^^ b) 0
  | .finite a m, .finite b n =>
    if n.units = 0 then if m.units = 0 then .nan else .infinite (a ^^ b)
    else ofRatio (a ^^ b) (m.units * unitsPerOne) n.units

instance : Div Double := ⟨Double.div⟩

/-- The remainder of the division whose quotient is truncated; it has the sign of the dividend. -/
protected def mod : Double → Double → Double
  | .nan, _ | _, .nan => .nan
  | .infinite _, _ => .nan
  | .finite a m, .infinite _ => .finite a m
  | .finite a m, .finite _ n =>
    if n.units = 0 then .nan else ofUnits a (m.units % n.units)

instance : Mod Double := ⟨Double.mod⟩

/-- Powers come from the platform's function, except that a NaN exponent, and an infinite exponent of
`1` or `-1`, have no value here. -/
def pow (base exponent : Double) : Double :=
  let isOne : Double → Bool
    | .finite _ m => m.units == unitsPerOne
    | _ => false
  match exponent with
  | .nan => .nan
  | .infinite _ => if isOne base then .nan else viaPlatform
  | .finite _ _ => viaPlatform
where
  viaPlatform : Double :=
    ofBits (Float.pow (Float.ofBits base.toBits) (Float.ofBits exponent.toBits)).toBits

/-- The value without its fraction; zero for a number that is not finite. -/
def truncate : Double → Int
  | .finite negative m =>
    if negative then -((m.units / unitsPerOne : Nat) : Int) else (m.units / unitsPerOne : Nat)
  | _ => 0

/-- Finite and without a fraction. -/
def isIntegral : Double → Bool
  | .finite _ m => m.units % unitsPerOne == 0
  | _ => false

/-- The order of two numbers; zeros are equal, and a NaN is ordered with nothing. -/
def compare? : Double → Double → Option Ordering
  | .nan, _ | _, .nan => none
  | .infinite a, .infinite b => some (if a = b then .eq else if a then .lt else .gt)
  | .infinite a, .finite _ _ => some (if a then .lt else .gt)
  | .finite _ _, .infinite b => some (if b then .gt else .lt)
  | .finite a m, .finite b n => some (compare (signedUnits a m) (signedUnits b n))

def eqNumber (x y : Double) : Bool := compare? x y == some .eq

def lt (x y : Double) : Bool := compare? x y == some .lt

def le (x y : Double) : Bool := lt x y || eqNumber x y

/-- The integer part modulo `2 ^ 32`, read as a signed word; zero for a number that is not finite. -/
def toInt32 (x : Double) : Int32 := Int32.ofInt x.truncate

/-- The integer part modulo `2 ^ 32`. -/
def toUInt32 (x : Double) : UInt32 := x.toInt32.toUInt32

end Double

end InlineCache
