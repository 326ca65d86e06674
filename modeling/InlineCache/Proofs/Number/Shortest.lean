import InlineCache.Proofs.Number.Whole

namespace InlineCache

-- Powers of whole numbers are the ones of core, also where another definition of powers is in scope.
attribute [local instance (high)] instPowNat

private theorem two_pow_dvd_unitsPerOne {bits : Nat} (hbits : bits ≤ 1074) :
    2 ^ bits ∣ unitsPerOne := by
  unfold unitsPerOne
  exact @Nat.pow_dvd_pow bits 1074 2 hbits

private theorem unitsPerOne_dvd_two_pow {bits : Nat} (hbits : 1074 ≤ bits) :
    unitsPerOne ∣ 2 ^ bits := by
  unfold unitsPerOne
  exact @Nat.pow_dvd_pow 1074 bits 2 hbits

private theorem two_pow_mul_unitsPerOne (bits : Nat) : 2 ^ bits * unitsPerOne = 2 ^ (bits + 1074) := by
  unfold unitsPerOne
  exact (Nat.pow_add 2 bits 1074).symm

attribute [local irreducible] unitsPerOne

namespace Decimal

variable {m : Magnitude} {tieUp : Bool} {count : Nat} {places : Int}

private theorem roundingReach_le (m : Magnitude) :
    (roundingReach m).1 ≤ 2 * 2 ^ droppedBits m.units ∧
      (roundingReach m).2 = 2 * 2 ^ droppedBits m.units := by
  unfold roundingReach
  dsimp only
  refine ⟨?_, rfl⟩
  split <;> omega

/-- What rounds to a magnitude is no farther from it than half the gap to the next one. -/
theorem near_of_roundsTo {whole : Nat} (hrounds : roundsTo m count places = true)
    (hwhole : count * 10 ^ (-places).toNat = whole * 10 ^ places.toNat) :
    4 * m.units ≤ 4 * (whole * unitsPerOne) + 2 * 2 ^ droppedBits m.units ∧
      4 * (whole * unitsPerOne) ≤ 4 * m.units + 2 * 2 ^ droppedBits m.units := by
  have hup : 0 < 10 ^ places.toNat := Nat.pow_pos (by decide)
  have hvalue : 4 * count * unitsPerOne * 10 ^ (-places).toNat =
      4 * (whole * unitsPerOne) * 10 ^ places.toNat := by
    calc 4 * count * unitsPerOne * 10 ^ (-places).toNat
        = 4 * unitsPerOne * (count * 10 ^ (-places).toNat) := by ac_rfl
      _ = 4 * unitsPerOne * (whole * 10 ^ places.toNat) := by rw [hwhole]
      _ = 4 * (whole * unitsPerOne) * 10 ^ places.toNat := by ac_rfl
  have hbounds : (4 * m.units - (roundingReach m).1) * 10 ^ places.toNat ≤
        4 * (whole * unitsPerOne) * 10 ^ places.toNat ∧
      4 * (whole * unitsPerOne) * 10 ^ places.toNat ≤
        (4 * m.units + (roundingReach m).2) * 10 ^ places.toNat := by
    unfold roundsTo at hrounds
    simp only [hvalue] at hrounds
    split at hrounds
    · exact of_decide_eq_true hrounds
    · have hstrict := of_decide_eq_true hrounds
      exact ⟨Nat.le_of_lt hstrict.1, Nat.le_of_lt hstrict.2⟩
  obtain ⟨hbelow, habove⟩ := roundingReach_le m
  have hleast := Nat.le_of_mul_le_mul_right hbounds.1 hup
  have hgreatest := Nat.le_of_mul_le_mul_right hbounds.2 hup
  constructor <;> omega

private theorem le_of_near {gap a b : Nat} (hgap : 0 < gap)
    (hnear : 4 * (gap * a) ≤ 4 * (gap * b) + 2 * gap) : a ≤ b := by
  refine Nat.le_of_lt_succ (Nat.lt_of_mul_lt_mul_left (a := gap) ?_)
  rw [Nat.mul_succ]
  omega

/-- A magnitude to which a whole number rounds is whole. The gap between two magnitudes either divides
one, or is a multiple of it. -/
theorem dvd_units_of_roundsTo {whole : Nat} (hrounds : roundsTo m count places = true)
    (hwhole : count * 10 ^ (-places).toNat = whole * 10 ^ places.toNat) : unitsPerOne ∣ m.units := by
  rcases Nat.le_total (droppedBits m.units) 1074 with hle | hge
  · -- the whole number is a magnitude itself, so no other one is as near
    obtain ⟨hleast, hgreatest⟩ := near_of_roundsTo hrounds hwhole
    obtain ⟨a, ha⟩ : 2 ^ droppedBits m.units ∣ m.units := m.fits
    obtain ⟨b, hb⟩ : 2 ^ droppedBits m.units ∣ whole * unitsPerOne :=
      Nat.dvd_mul_left_of_dvd (two_pow_dvd_unitsPerOne hle) whole
    have hgap := Nat.two_pow_pos (droppedBits m.units)
    have heq : a = b := by
      generalize 2 ^ droppedBits m.units = gap at *
      rw [hb, ha] at hleast hgreatest
      exact Nat.le_antisymm (le_of_near hgap hleast) (le_of_near hgap hgreatest)
    refine ⟨whole, ?_⟩
    rw [Nat.mul_comm unitsPerOne, hb, ← heq]
    exact ha
  · exact Nat.dvd_trans (unitsPerOne_dvd_two_pow hge) m.fits

private theorem candidate?_cases (hcandidate : candidate? tieUp m places = some count) :
    roundsTo m count places = true ∧
      m.units * 10 ^ places.toNat / (unitsPerOne * 10 ^ (-places).toNat) ≤ count := by
  unfold candidate? at hcandidate
  dsimp only at hcandidate
  split at hcandidate
  · cases hcandidate
  · next hlow _ =>
    cases hcandidate
    exact ⟨hlow, Nat.le_refl _⟩
  · next _ hhigh =>
    cases hcandidate
    exact ⟨hhigh, Nat.le_succ _⟩
  · next hlow hhigh =>
    cases hcandidate
    split
    · exact ⟨hhigh, Nat.le_succ _⟩
    · exact ⟨hlow, Nat.le_refl _⟩

/-- Zeros that are taken away are zeros of the number. -/
theorem exists_eq_stripZeros_mul (n digits : Nat) :
    ∃ zeros : Nat, digits = stripZeros n digits * 10 ^ zeros := by
  induction n generalizing digits with
  | zero => exact ⟨0, by rw [stripZeros, Nat.pow_zero, Nat.mul_one]⟩
  | succ n ih =>
    rw [stripZeros]
    split
    · next hzero =>
      obtain ⟨zeros, hzeros⟩ := ih (digits / 10)
      refine ⟨zeros + 1, ?_⟩
      rw [Nat.pow_succ, ← Nat.mul_assoc, ← hzeros]
      omega
    · exact ⟨0, by rw [Nat.pow_zero, Nat.mul_one]⟩

/-- The shortest decimal is a candidate, without the zeros at its end, if there is one. -/
theorem shortest_cases (tieUp : Bool) (m : Magnitude) :
    shortest tieUp m = ⟨0, 0⟩ ∨ ∃ n count : Nat,
      candidate? tieUp m ((n : Int) - pointOf m.units) = some count ∧
        (count = 10 ^ n ∧ shortest tieUp m = ⟨1, pointOf m.units + 1⟩ ∨
          shortest tieUp m = ⟨stripZeros n count, pointOf m.units⟩) := by
  unfold shortest
  dsimp only
  split
  · next n count hfind =>
    obtain ⟨n', -, hn'⟩ := List.exists_of_findSome?_eq_some hfind
    obtain ⟨count', hcandidate, heq⟩ := Option.map_eq_some_iff.1 hn'
    cases heq
    refine .inr ⟨n, count, hcandidate, ?_⟩
    split
    · next hpower => exact .inl ⟨hpower, rfl⟩
    · exact .inr rfl
  · exact .inl rfl

private theorem pointOf_cases (units : Nat) :
    (pointOf units = ((units.log2 : Int) - 1074) * 30103 / 100000 + 1) ∨
      (pointOf units = ((units.log2 : Int) - 1074) * 30103 / 100000 + 2 ∧
        10 ^ (pointOf units - 1).toNat * unitsPerOne ≤ units * 10 ^ (-(pointOf units - 1)).toNat) := by
  have hdiv : Int.fdiv (((units.log2 : Int) - 1074) * 30103) 100000 =
      ((units.log2 : Int) - 1074) * 30103 / 100000 := Int.fdiv_eq_ediv_of_nonneg _ (by decide)
  unfold pointOf
  dsimp only
  rw [hdiv]
  split
  · exact .inl rfl
  · next hnot =>
    refine .inr ⟨by omega, ?_⟩
    rw [Int.add_sub_cancel]
    exact Nat.le_of_not_lt hnot

/-- The first of the digits before the point is no zero. -/
theorem le_units_of_pointOf {units : Nat} (hpos : 0 < pointOf units) (hle : pointOf units ≤ 16) :
    10 ^ (pointOf units - 1).toNat * unitsPerOne ≤ units := by
  rcases pointOf_cases units with hpoint | ⟨-, hunits⟩
  · have hpow : ∀ e < 54, 10 ^ (e * 30103 / 100000) ≤ 2 ^ e := by decide
    obtain ⟨e, he⟩ : ∃ e, units.log2 = e + 1074 := ⟨units.log2 - 1074, by omega⟩
    have hplaces : (pointOf units - 1).toNat = e * 30103 / 100000 := by omega
    have hne : units ≠ 0 := by
      rintro rfl
      rw [Nat.log2_zero] at he
      omega
    rw [hplaces]
    calc 10 ^ (e * 30103 / 100000) * unitsPerOne
        ≤ 2 ^ e * unitsPerOne := Nat.mul_le_mul_right _ (hpow e (by omega))
      _ = 2 ^ units.log2 := by rw [two_pow_mul_unitsPerOne, he]
      _ ≤ units := Nat.log2_self_le hne
  · have hzero : (-(pointOf units - 1)).toNat = 0 := by omega
    rw [hzero, Nat.pow_zero, Nat.mul_one] at hunits
    exact hunits

/-- A magnitude past the whole numbers that are written out has more digits before its point than are written
out without an exponent. -/
theorem le_pointOf {units : Nat} (hlarge : Double.wholeTextLimit * unitsPerOne ≤ units) :
    19 ≤ pointOf units := by
  have hlog : 62 + 1074 ≤ units.log2 := by
    have hpow : 2 ^ 62 * unitsPerOne ≤ units :=
      Nat.le_trans (Nat.mul_le_mul_right _ (by decide)) hlarge
    rw [two_pow_mul_unitsPerOne] at hpow
    have hne : units ≠ 0 := Nat.ne_of_gt (Nat.lt_of_lt_of_le (Nat.two_pow_pos _) hpow)
    exact (Nat.le_log2 hne).2 hpow
  rcases pointOf_cases units with hpoint | ⟨hpoint, -⟩ <;> omega

theorem point_of_large (hlarge : Double.wholeTextLimit * unitsPerOne ≤ m.units) :
    (shortest tieUp m).point = 0 ∨ 16 < (shortest tieUp m).point := by
  have hpoint := le_pointOf hlarge
  rcases shortest_cases tieUp m with heq | ⟨n, count, -, ⟨-, heq⟩ | heq⟩ <;> rw [heq] <;> dsimp only
  · exact .inl rfl
  · exact .inr (by omega)
  · exact .inr (by omega)

/-- A candidate has no fewer digits than were asked for, if some of them are after the point. -/
theorem pow_le_of_candidate? {n : Nat} (hcandidate : candidate? tieUp m ((n : Int) - pointOf m.units) = some count)
    (hpos : 0 < pointOf m.units) (hle : pointOf m.units ≤ 16) :
    10 ^ (n - 1) ≤ count ∨ (n : Int) ≤ pointOf m.units := by
  have hunits := le_units_of_pointOf hpos hle
  obtain ⟨-, hlow⟩ := candidate?_cases hcandidate
  generalize pointOf m.units = point at *
  rcases Int.lt_or_le point n with hlt | hge
  · refine .inl (Nat.le_trans ?_ hlow)
    have hzero : (-((n : Int) - point)).toNat = 0 := by omega
    have hplaces : n - 1 = (point - 1).toNat + ((n : Int) - point).toNat := by omega
    rw [hzero, Nat.pow_zero, Nat.mul_one, Nat.le_div_iff_mul_le Double.unitsPerOne_pos, hplaces,
      Nat.pow_add, Nat.mul_right_comm]
    exact Nat.mul_le_mul_right _ hunits
  · exact .inr hge

/-- A candidate of few digits before a point is a whole number, unless digits are left after the point. -/
theorem whole_of_length_le {n : Nat} {point : Int} (hpos : 0 < point)
    (hleast : 10 ^ (n - 1) ≤ count ∨ (n : Int) ≤ point)
    (hlength : ((Nat.toDigits 10 (stripZeros n count)).length : Int) ≤ point) :
    ∃ whole, count * 10 ^ (-((n : Int) - point)).toNat = whole * 10 ^ ((n : Int) - point).toNat := by
  rcases Int.le_total n point with hle | hge
  · have hzero : ((n : Int) - point).toNat = 0 := by omega
    exact ⟨_, by rw [hzero, Nat.pow_zero, Nat.mul_one]⟩
  · obtain ⟨zeros, hzeros⟩ := exists_eq_stripZeros_mul n count
    have hdigits : stripZeros n count < 10 ^ point.toNat :=
      (Nat.length_toDigits_le_iff (by decide) (by omega)).1 (by omega)
    have hzero : (-((n : Int) - point)).toNat = 0 := by omega
    have hpower : 10 ^ ((n : Int) - point).toNat ∣ 10 ^ zeros := by
      refine Nat.pow_dvd_pow 10 ?_
      rcases hleast with hleast | hle
      · have hlt : 10 ^ (n - 1) < 10 ^ (point.toNat + zeros) := by
          rw [Nat.pow_add]
          refine Nat.lt_of_le_of_lt (hzeros ▸ hleast) ?_
          exact Nat.mul_lt_mul_of_pos_right hdigits (Nat.pow_pos (by decide))
        have hexponent := (Nat.pow_lt_pow_iff_right (by decide)).1 hlt
        omega
      · omega
    obtain ⟨whole, hwhole⟩ := Nat.dvd_trans hpower (Nat.dvd_mul_left _ (stripZeros n count))
    refine ⟨whole, ?_⟩
    rw [hzero, Nat.pow_zero, Nat.mul_one, Nat.mul_comm whole, ← hwhole]
    exact hzeros

/-- The decimal of a magnitude with a fraction has digits after its point. -/
theorem point_lt_length (hfraction : ¬ unitsPerOne ∣ m.units) (hpos : 0 < (shortest tieUp m).point)
    (hle : (shortest tieUp m).point ≤ 16) :
    (shortest tieUp m).point < (shortest tieUp m).digitChars.length := by
  rcases shortest_cases tieUp m with heq | ⟨n, count, hcandidate, ⟨hpower, heq⟩ | heq⟩
  · rw [heq] at hpos
    exact absurd hpos (by decide)
  · -- a power of ten is a whole number
    rw [heq] at hpos
    obtain ⟨whole, hwhole⟩ : ∃ whole, count * 10 ^ (-((n : Int) - pointOf m.units)).toNat =
        whole * 10 ^ ((n : Int) - pointOf m.units).toNat := by
      refine ⟨10 ^ (pointOf m.units).toNat, ?_⟩
      rw [hpower, ← Nat.pow_add, ← Nat.pow_add]
      dsimp only at hpos
      congr 1
      omega
    exact absurd (dvd_units_of_roundsTo (candidate?_cases hcandidate).1 hwhole) hfraction
  · rw [heq] at hpos hle ⊢
    refine Int.not_le.1 fun hlength => ?_
    obtain ⟨whole, hwhole⟩ := whole_of_length_le hpos (pow_le_of_candidate? hcandidate hpos hle) hlength
    exact hfraction (dvd_units_of_roundsTo (candidate?_cases hcandidate).1 hwhole)

end Decimal

end InlineCache
