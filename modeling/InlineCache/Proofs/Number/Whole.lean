import InlineCache.Operation.Arith
import InlineCache.Operation.Property

namespace InlineCache

-- Powers of whole numbers are the ones of core, also where another definition of powers is in scope.
attribute [local instance (high)] instPowNat

namespace Double

private theorem two_pow_pos (s : Nat) : 0 < 2 ^ s := Nat.two_pow_pos s

theorem unitsPerOne_pos : 0 < unitsPerOne := by
  unfold unitsPerOne
  exact two_pow_pos 1074

private theorem mul_two_pow_lt {k s t : Nat} (hk : k ≤ 2 ^ (53 : Nat)) (hst : 53 + s < t) :
    k * 2 ^ s < 2 ^ t := by
  have hle : k * 2 ^ s ≤ 2 ^ (53 + s) := by
    rw [Nat.pow_add]
    exact Nat.mul_le_mul_right _ hk
  exact Nat.lt_of_le_of_lt hle (Nat.pow_lt_pow_right (by decide) hst)

/-- A whole number that is not too far from zero is a double. -/
theorem exists_ofInt_eq_finite {n : Int} (hn : n.natAbs ≤ 2 ^ (53 : Nat)) :
    ∃ m : Magnitude, m.units = n.natAbs * unitsPerOne ∧ ofInt n = .finite (decide (n < 0)) m := by
  have hfits : Fits (n.natAbs * unitsPerOne) := by
    unfold unitsPerOne
    exact fits_mul_two_pow hn 1074
  have hlt : n.natAbs * unitsPerOne < unitsLimit := by
    unfold unitsPerOne unitsLimit
    exact mul_two_pow_lt (s := 1074) (t := 2098) hn (by decide)
  exact ⟨⟨_, hfits, hlt⟩, rfl, ofUnits_magnitude _ ⟨_, hfits, hlt⟩⟩

attribute [local irreducible] unitsPerOne

private theorem signedUnits_eq {n : Int} {m : Magnitude} (hm : m.units = n.natAbs * unitsPerOne) :
    signedUnits (decide (n < 0)) m = n * unitsPerOne := by
  have hcast : (m.units : Int) = (n.natAbs : Int) * unitsPerOne := by
    rw [hm, Int.natCast_mul]
  unfold signedUnits
  split
  · next hneg =>
    have habs : (n.natAbs : Int) = -n := by
      have := of_decide_eq_true hneg
      omega
    rw [hcast, habs, Int.neg_mul, Int.neg_neg]
  · next hneg =>
    have habs : (n.natAbs : Int) = n := by
      have : ¬ n < 0 := fun h => hneg (decide_eq_true h)
      omega
    rw [hcast, habs]

/-- The sum of two whole numbers of units. Where it is zero, the terms must not both be negative. -/
theorem finite_add_finite {s t : Bool} {m n : Magnitude} {a b : Int}
    (hm : signedUnits s m = a * unitsPerOne) (hn : signedUnits t n = b * unitsPerOne)
    (hsign : a + b = 0 → (s && t) = false) :
    (.finite s m : Double) + .finite t n = ofInt (a + b) := by
  have hsum : signedUnits s m + signedUnits t n = (a + b) * unitsPerOne := by
    rw [hm, hn, Int.add_mul]
  have hpos : (0 : Int) < unitsPerOne := Int.natCast_pos.2 unitsPerOne_pos
  change Double.add _ _ = _
  simp only [Double.add, hsum]
  by_cases hzero : a + b = 0
  · rw [if_pos (by rw [hzero, Int.zero_mul]), hsign hzero, hzero]
    simp [ofInt]
  · have hne : (a + b) * (unitsPerOne : Int) ≠ 0 :=
      Int.mul_ne_zero hzero (Int.ne_of_gt hpos)
    have hneg : ((a + b) * (unitsPerOne : Int) < 0) ↔ a + b < 0 := by
      constructor
      · exact fun hlt => Int.neg_of_mul_neg_left hlt hpos
      · exact fun hlt => Int.mul_neg_of_neg_of_pos hlt hpos
    rw [if_neg hne, ofInt, Int.natAbs_mul, Int.natAbs_natCast]
    simp only [hneg]

private theorem ofInt_add_ofInt {a b : Int} (ha : a.natAbs ≤ 2 ^ (53 : Nat))
    (hb : b.natAbs ≤ 2 ^ (53 : Nat)) : ofInt a + ofInt b = ofInt (a + b) := by
  obtain ⟨m, hm, heq⟩ := exists_ofInt_eq_finite ha
  obtain ⟨n, hn, heq'⟩ := exists_ofInt_eq_finite hb
  rw [heq, heq']
  refine finite_add_finite (signedUnits_eq hm) (signedUnits_eq hn) fun hzero => ?_
  simp only [Bool.and_eq_false_iff, decide_eq_false_iff_not]
  omega

private theorem ofInt_sub_ofInt {a b : Int} (ha : a.natAbs ≤ 2 ^ (53 : Nat))
    (hb : b.natAbs ≤ 2 ^ (53 : Nat)) : ofInt a - ofInt b = ofInt (a - b) := by
  obtain ⟨m, hm, heq⟩ := exists_ofInt_eq_finite ha
  obtain ⟨n, hn, heq'⟩ := exists_ofInt_eq_finite hb
  have hneg : signedUnits (!decide (b < 0)) n = -b * unitsPerOne := by
    have hunits := signedUnits_eq hn
    rw [Int.neg_mul, ← hunits]
    cases decide (b < 0) <;> simp [signedUnits]
  rw [heq, heq', Int.sub_eq_add_neg]
  refine finite_add_finite (signedUnits_eq hm) hneg fun hzero => ?_
  have hab : a = b := by omega
  rw [hab]
  exact Bool.and_not_self _

theorem truncate_ofInt {n : Int} (hn : n.natAbs ≤ 2 ^ (53 : Nat)) : (ofInt n).truncate = n := by
  obtain ⟨m, hm, heq⟩ := exists_ofInt_eq_finite hn
  have hdiv : m.units / unitsPerOne = n.natAbs := by
    rw [hm]
    exact Nat.mul_div_cancel _ unitsPerOne_pos
  rw [heq, truncate, hdiv]
  clear hm hdiv
  by_cases hneg : n < 0
  · rw [if_pos (decide_eq_true hneg)]
    omega
  · rw [if_neg (fun h => hneg (of_decide_eq_true h))]
    omega

theorem isIntegral_ofInt {n : Int} (hn : n.natAbs ≤ 2 ^ (53 : Nat)) : (ofInt n).isIntegral = true := by
  obtain ⟨m, hm, heq⟩ := exists_ofInt_eq_finite hn
  have hmod : m.units % unitsPerOne = 0 := by
    rw [hm]
    exact Nat.mul_mod_left _ _
  rw [heq, isIntegral, hmod]
  rfl

/-- No whole number is the negative zero. -/
theorem not_isZero_and_isNegative_ofInt {n : Int} (hn : n.natAbs ≤ 2 ^ (53 : Nat)) :
    ((ofInt n).isZero && (ofInt n).isNegative) = false := by
  obtain ⟨m, hm, heq⟩ := exists_ofInt_eq_finite hn
  rw [heq, isZero, isNegative]
  by_cases hneg : n < 0
  · have hne : m.units ≠ 0 := by
      rw [hm]
      exact Nat.mul_ne_zero (Int.natAbs_ne_zero.2 (Int.ne_of_lt hneg)) (Nat.ne_of_gt unitsPerOne_pos)
    rw [beq_false_of_ne hne, Bool.false_and]
  · rw [decide_eq_false hneg, Bool.and_false]

end Double

namespace Value

private theorem natAbs_toInt_le (i : Int32) : i.toInt.natAbs ≤ 0x80000000 := by
  have hlt := i.toInt_lt
  have hle := i.le_toInt
  omega

theorem natAbs_toInt_le_two_pow (i : Int32) : i.toInt.natAbs ≤ 2 ^ (53 : Nat) :=
  Nat.le_trans (natAbs_toInt_le i) (by decide)

@[simp] theorem toInt32_doubleOfInt32 (i : Int32) : (doubleOfInt32 i).toInt32 = i := by
  rw [doubleOfInt32, Double.toInt32, Double.truncate_ofInt (natAbs_toInt_le_two_pow i), Int32.ofInt_toInt]

end Value

namespace Operation

/-- A whole number is the same value whichever way it is made one. -/
theorem ofWhole_eq {n : Int} (hn : n.natAbs ≤ 2 ^ (53 : Nat)) : ofWhole n = .number (Double.ofInt n) := by
  unfold ofWhole
  split
  · next hrange =>
    have hexact : Value.isExactInt32 (Double.ofInt n) = true := by
      simp only [Value.isExactInt32, Double.isIntegral_ofInt hn, Double.truncate_ofInt hn,
        Double.not_isZero_and_isNegative_ofInt hn, Bool.true_and, Bool.not_false, Bool.and_true]
      exact decide_eq_true hrange
    rw [Value.number, if_pos hexact, Double.truncate_ofInt hn]
  · rfl

/-- Arithmetic on integers gives the values of arithmetic on doubles. -/
theorem int32Arith_eq (op : BinaryOp) (a b : Int32) :
    int32Arith op a b = doubleArith op (Value.doubleOfInt32 a) (Value.doubleOfInt32 b) := by
  have ha := Value.natAbs_toInt_le a
  have hb := Value.natAbs_toInt_le b
  cases op with
  | add =>
    have hsum : (a.toInt + b.toInt).natAbs ≤ 2 ^ (53 : Nat) := by omega
    rw [int32Arith, doubleArith, ofWhole_eq hsum, Value.doubleOfInt32, Value.doubleOfInt32,
      Double.ofInt_add_ofInt (Value.natAbs_toInt_le_two_pow a) (Value.natAbs_toInt_le_two_pow b)]
  | sub =>
    have hsum : (a.toInt - b.toInt).natAbs ≤ 2 ^ (53 : Nat) := by omega
    rw [int32Arith, doubleArith, ofWhole_eq hsum, Value.doubleOfInt32, Value.doubleOfInt32,
      Double.ofInt_sub_ofInt (Value.natAbs_toInt_le_two_pow a) (Value.natAbs_toInt_le_two_pow b)]
  | mul | div | mod | pow => rfl
  | _ => simp [int32Arith, doubleArith]

theorem int32Unary_eq (op : UnaryOp) (i : Int32) :
    int32Unary op i = doubleUnary op (Value.doubleOfInt32 i) := by
  have hi := Value.natAbs_toInt_le i
  have hone : (1 : Int).natAbs ≤ 2 ^ (53 : Nat) := by decide
  cases op with
  | neg => rfl
  | bitNot => simp [int32Unary, doubleUnary]
  | inc =>
    have hsum : (i.toInt + 1).natAbs ≤ 2 ^ (53 : Nat) := by omega
    rw [int32Unary, doubleUnary, ofWhole_eq hsum, Value.doubleOfInt32,
      Double.ofInt_add_ofInt (Value.natAbs_toInt_le_two_pow i) hone]
  | dec =>
    have hsum : (i.toInt - 1).natAbs ≤ 2 ^ (53 : Nat) := by omega
    rw [int32Unary, doubleUnary, ofWhole_eq hsum, Value.doubleOfInt32,
      Double.ofInt_sub_ofInt (Value.natAbs_toInt_le_two_pow i) hone]

/-- The numbers of elements are the whole ones below the limit. -/
theorem indexOfNumber?_eq_some_iff {d : Double} {n : Nat} :
    indexOfNumber? d = some n ↔ d.isIntegral = true ∧ d.truncate = n ∧ n < Text.indexLimit := by
  unfold indexOfNumber?
  constructor
  · intro hindex
    split at hindex
    · next hrange =>
      obtain ⟨hintegral, hnonneg, hlt⟩ := hrange
      cases hindex
      exact ⟨hintegral, by omega, by omega⟩
    · cases hindex
  · rintro ⟨hintegral, htruncate, hlt⟩
    rw [if_pos ⟨hintegral, by omega, by omega⟩, htruncate, Int.toNat_natCast]

/-- Every integer that is not negative is below the limit of indices. -/
theorem lt_indexLimit_of_int32 (i : Int32) : i.toInt.toNat < Text.indexLimit := by
  have hlt := i.toInt_lt
  simp only [Text.indexLimit]
  omega

/-- The element that an integer names as a number. -/
theorem indexOfNumber?_doubleOfInt32 {i : Int32} (hi : 0 ≤ i.toInt) :
    indexOfNumber? (Value.doubleOfInt32 i) = some i.toInt.toNat := by
  have hn := Value.natAbs_toInt_le_two_pow i
  refine indexOfNumber?_eq_some_iff.2 ⟨Double.isIntegral_ofInt hn, ?_, lt_indexLimit_of_int32 i⟩
  rw [Value.doubleOfInt32, Double.truncate_ofInt hn, Int.toNat_of_nonneg hi]

end Operation

end InlineCache
