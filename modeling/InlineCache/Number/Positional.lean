namespace InlineCache.Positional

-- Powers of whole numbers are the ones of core, also where another definition of powers is in scope.
attribute [local instance (high)] instPowNat

/-- A number with one more digit at its end. -/
def appendDigit (base n digit : Nat) : Nat := n * base + digit

theorem foldl_appendDigit (base n : Nat) (digits : List Nat) :
    digits.foldl (appendDigit base) n =
      n * base ^ digits.length + digits.foldl (appendDigit base) 0 := by
  induction digits generalizing n with
  | nil => simp
  | cons d rest ih =>
    rw [List.foldl_cons, List.foldl_cons, ih, ih (appendDigit base 0 d)]
    simp only [appendDigit, List.length_cons, Nat.pow_succ, Nat.add_mul, Nat.zero_mul,
      Nat.zero_add, Nat.mul_comm (base ^ rest.length) base, Nat.mul_assoc, Nat.add_assoc]

/-- The number that digits denote, read by halving the list a number of times. -/
def ofHalves (base : Nat) : Nat → List Nat → Nat
  | 0, digits => digits.foldl (appendDigit base) 0
  | depth + 1, digits =>
    let high := digits.take (digits.length / 2)
    let low := digits.drop (digits.length / 2)
    ofHalves base depth high * base ^ low.length + ofHalves base depth low

private theorem ofHalves_eq_foldl (base depth : Nat) (digits : List Nat) :
    ofHalves base depth digits = digits.foldl (appendDigit base) 0 := by
  induction depth generalizing digits with
  | zero => rfl
  | succ depth ih =>
    simp only [ofHalves, ih]
    rw [← foldl_appendDigit, ← List.foldl_append, List.take_append_drop]

/-- The number that digits denote, the most significant digit first. Long lists are halved, so that the few
multiplications of large numbers are of numbers of one size. -/
def ofDigits (base : Nat) (digits : List Nat) : Nat :=
  ofHalves base (digits.length.log2 - 4) digits

theorem ofDigits_eq_foldl (base : Nat) (digits : List Nat) :
    ofDigits base digits = digits.foldl (appendDigit base) 0 :=
  ofHalves_eq_foldl base _ digits

end InlineCache.Positional
