import InlineCache.Number.Double

namespace InlineCache

-- Powers of whole numbers are the ones of core, also where another definition of powers is in scope.
attribute [local instance (high)] instPowNat

/-- How far apart two whole numbers are. -/
def distance (a b : Nat) : Nat := (a - b) + (b - a)

/-- No magnitude is nearer to a number of units, and where another one is as near, the last of the
significant digits is zero. -/
structure Magnitude.Nearest (m : Magnitude) (units : Nat) : Prop where
  distance_le : ∀ m' : Magnitude, distance m.units units ≤ distance m'.units units
  even_of_tie : ∀ m' : Magnitude, m' ≠ m → distance m'.units units = distance m.units units →
    m.units / 2 ^ droppedBits m.units % 2 = 0

section

variable {num den : Nat}

/-- Where a number lies between two multiples of `den`, and which of them it is rounded to. -/
theorem roundDiv_cases (num : Nat) (hden : 0 < den) :
    num / den * den ≤ num ∧ num < num / den * den + den ∧
      (roundDiv num den = num / den ∧ 2 * (num - num / den * den) ≤ den ∨
        roundDiv num den = num / den + 1 ∧ den ≤ 2 * (num - num / den * den)) ∧
      (2 * (num - num / den * den) = den → roundDiv num den % 2 = 0) := by
  have hsplit : num / den * den + num % den = num := Nat.div_add_mod' num den
  have hlt : num % den < den := Nat.mod_lt num hden
  unfold roundDiv
  split
  · omega
  · split <;> omega

private theorem roundDiv_nearest (num : Nat) (hden : 0 < den) (k : Nat) :
    distance (roundDiv num den * den) num ≤ distance (k * den) num := by
  obtain ⟨hle, hlt, hrounds, -⟩ := roundDiv_cases num hden
  have hk : k * den ≤ num / den * den ∨ num / den * den + den ≤ k * den := by
    rcases Nat.lt_or_ge (num / den) k with hgt | hge
    · have hmul := Nat.mul_le_mul_right den hgt
      rw [Nat.succ_mul] at hmul
      exact .inr hmul
    · exact .inl (Nat.mul_le_mul_right den hge)
  unfold distance
  rcases hrounds with ⟨heq, _⟩ | ⟨heq, _⟩
  · rw [heq]
    omega
  · rw [heq, Nat.succ_mul]
    omega

/-- Only where a number is in the middle are two multiples as near, and then the even one is taken. -/
theorem roundDiv_even_of_tie (hden : 0 < den) {k : Nat} (hne : k ≠ roundDiv num den)
    (htie : distance (k * den) num = distance (roundDiv num den * den) num) :
    roundDiv num den % 2 = 0 := by
  obtain ⟨hle, hlt, hrounds, heven⟩ := roundDiv_cases num hden
  apply heven
  have hk : k * den + den ≤ num / den * den ∨ k = num / den ∨ k = num / den + 1 ∨
      num / den * den + 2 * den ≤ k * den := by
    rcases Nat.lt_trichotomy k (num / den) with hless | heq | hmore
    · have hmul := Nat.mul_le_mul_right den hless
      rw [Nat.succ_mul] at hmul
      exact .inl hmul
    · exact .inr (.inl heq)
    · rcases Nat.lt_or_eq_of_le hmore with hgt | heq
      · have hmul := Nat.mul_le_mul_right den hgt
        rw [Nat.succ_mul, Nat.succ_mul] at hmul
        omega
      · exact .inr (.inr (.inl heq.symm))
  unfold distance at htie
  rcases hrounds with ⟨heq, _⟩ | ⟨heq, _⟩
  · rw [heq] at htie hne
    rcases hk with h | rfl | rfl | h
    · omega
    · exact absurd rfl hne
    · rw [Nat.succ_mul] at htie
      omega
    · omega
  · rw [heq, Nat.succ_mul] at htie
    rw [heq] at hne
    rcases hk with h | rfl | rfl | h
    · omega
    · omega
    · exact absurd rfl hne
    · omega

end

variable {units : Nat}

private theorem roundUnits_eq (units : Nat) :
    roundUnits units 1 = roundDiv units (2 ^ droppedBits units) * 2 ^ droppedBits units := by
  rw [roundUnits, Nat.div_one, Nat.one_mul]

/-- A magnitude lies on the grid around a number, or below the power of two that the number is past. So
the nearest on the grid is the nearest of all. -/
theorem Magnitude.on_grid_or_below (m : Magnitude) (units : Nat) :
    (∃ k, m.units = k * 2 ^ droppedBits units) ∨
      m.units < 2 ^ (52 : Nat) * 2 ^ droppedBits units ∧ 2 ^ (52 : Nat) * 2 ^ droppedBits units ≤ units := by
  rcases Nat.lt_or_ge (droppedBits m.units) (droppedBits units) with hlt | hge
  · refine .inr ⟨?_, ?_⟩
    · refine Nat.lt_of_lt_of_le (lt_two_pow_droppedBits m.units) ?_
      rw [← Nat.pow_add]
      exact Nat.pow_le_pow_right (by decide) (by omega)
    · rw [← Nat.pow_add]
      have hpos : units ≠ 0 := by
        rintro rfl
        exact absurd hlt (Nat.not_lt_zero _)
      refine Nat.le_trans (Nat.pow_le_pow_right (by decide) ?_) (Nat.log2_self_le hpos)
      unfold droppedBits at hlt ⊢
      omega
  · obtain ⟨k, hk⟩ := Nat.dvd_trans (Nat.pow_dvd_pow 2 hge) m.fits
    exact .inl ⟨k, by rw [hk, Nat.mul_comm]⟩

/-- A magnitude below the grid is further away than the least one on it. -/
theorem distance_lt_of_below {least w : Nat} (hw : w < least) (hleast : least ≤ units) :
    distance least units < distance w units := by
  unfold distance
  omega

private theorem roundDiv_le_two_pow (units : Nat) :
    roundDiv units (2 ^ droppedBits units) ≤ 2 ^ (53 : Nat) := by
  refine Nat.le_trans (roundDiv_le _ _) (Nat.succ_le_of_lt (Nat.div_lt_of_lt_mul ?_))
  rw [← Nat.pow_add, Nat.add_comm]
  exact lt_two_pow_droppedBits units

private theorem droppedBits_mul_two_pow_le {r : Nat} (hr : r < 2 ^ (53 : Nat)) (s : Nat) :
    droppedBits (r * 2 ^ s) ≤ s := by
  rcases Nat.eq_zero_or_pos r with rfl | hpos
  · rw [Nat.zero_mul]
    exact Nat.zero_le s
  · have hne : r * 2 ^ s ≠ 0 := Nat.ne_of_gt (Nat.mul_pos hpos (Nat.two_pow_pos s))
    have hlog : (r * 2 ^ s).log2 < 53 + s := by
      rw [Nat.log2_lt hne, Nat.pow_add]
      exact Nat.mul_lt_mul_of_pos_right hr (Nat.two_pow_pos s)
    unfold droppedBits
    omega

/-- The last significant digit of an even number of steps of the grid is zero. -/
theorem even_of_even_steps {r : Nat} (hr : r ≤ 2 ^ (53 : Nat)) (heven : r % 2 = 0) (s : Nat) :
    r * 2 ^ s / 2 ^ droppedBits (r * 2 ^ s) % 2 = 0 := by
  have hgap : 0 < 2 ^ droppedBits (r * 2 ^ s) := Nat.two_pow_pos _
  obtain ⟨half, hhalf⟩ : ∃ half, r * 2 ^ s = 2 * half * 2 ^ droppedBits (r * 2 ^ s) := by
    rcases Nat.lt_or_eq_of_le hr with hlt | rfl
    · have hdropped := droppedBits_mul_two_pow_le hlt s
      generalize droppedBits (r * 2 ^ s) = dropped at hdropped ⊢
      obtain ⟨t, ht⟩ := Nat.pow_dvd_pow 2 hdropped
      obtain ⟨half, rfl⟩ := Nat.dvd_of_mod_eq_zero heven
      exact ⟨half * t, by rw [ht]; ac_rfl⟩
    · -- the number of steps has one digit too many, which is a zero
      have hdropped : droppedBits (2 ^ (53 : Nat) * 2 ^ s) = s + 1 := by
        rw [droppedBits, ← Nat.pow_add, Nat.log2_two_pow]
        omega
      refine ⟨2 ^ (51 : Nat), ?_⟩
      rw [hdropped, Nat.pow_succ]
      omega
  rw [Nat.div_eq_of_eq_mul_left hgap hhalf, Nat.mul_mod_right]

private theorem Magnitude.eq_of_units_eq {m m' : Magnitude} (h : m.units = m'.units) : m = m' := by
  cases m
  cases m'
  cases h
  rfl

private theorem nearest_roundUnits {m : Magnitude} (hm : m.units = roundUnits units 1) :
    m.Nearest units := by
  have hgap : 0 < 2 ^ droppedBits units := Nat.two_pow_pos _
  rw [roundUnits_eq] at hm
  constructor
  · intro m'
    rw [hm]
    rcases m'.on_grid_or_below units with ⟨k, hk⟩ | ⟨hbelow, hleast⟩
    · rw [hk]
      exact roundDiv_nearest units hgap k
    · exact Nat.le_trans (roundDiv_nearest units hgap (2 ^ (52 : Nat)))
        (Nat.le_of_lt (distance_lt_of_below hbelow hleast))
  · intro m' hne htie
    rw [hm] at htie ⊢
    rcases m'.on_grid_or_below units with ⟨k, hk⟩ | ⟨hbelow, hleast⟩
    · refine even_of_even_steps (roundDiv_le_two_pow units) (roundDiv_even_of_tie hgap (k := k) ?_ ?_) _
      · rintro rfl
        exact hne (Magnitude.eq_of_units_eq (hk.trans hm.symm))
      · rw [← hk]
        exact htie
    · have hnear := roundDiv_nearest units hgap (2 ^ (52 : Nat))
      have hfar := distance_lt_of_below hbelow hleast
      omega

namespace Double

private theorem mul_unitsPerOne_lt {n bits : Nat} (hn : n < 2 ^ bits) :
    n * unitsPerOne < 2 ^ (bits + 1074) := by
  unfold unitsPerOne
  rw [Nat.pow_add]
  exact Nat.mul_lt_mul_of_pos_right hn (@Nat.two_pow_pos 1074)

private theorem two_pow_le_unitsLimit {bits : Nat} (hbits : bits ≤ 2098) : 2 ^ bits ≤ unitsLimit := by
  unfold unitsLimit
  exact @Nat.pow_le_pow_right 2 (by decide) bits 2098 hbits

/-- A number of units that is not too large is rounded to a magnitude. -/
theorem roundUnits_lt_unitsLimit {bits : Nat} (hbits : bits < 2098) (hlt : units < 2 ^ bits) :
    roundUnits units 1 < unitsLimit := by
  have hdropped : droppedBits units ≤ bits := by
    rcases Nat.eq_zero_or_pos units with rfl | hpos
    · exact Nat.zero_le bits
    · have hlog : units.log2 < bits := (Nat.log2_lt (Nat.ne_of_gt hpos)).2 hlt
      unfold droppedBits
      omega
  have hgap : 2 ^ droppedBits units ≤ 2 ^ bits := Nat.pow_le_pow_right (by decide) hdropped
  have hround : roundUnits units 1 ≤ units + 2 ^ droppedBits units := by
    rw [roundUnits_eq]
    refine Nat.le_trans (Nat.mul_le_mul_right _ (roundDiv_le _ _)) ?_
    rw [Nat.succ_mul]
    exact Nat.add_le_add_right (Nat.div_mul_le_self _ _) _
  calc roundUnits units 1 ≤ units + 2 ^ droppedBits units := hround
    _ < 2 ^ bits + 2 ^ bits := Nat.add_lt_add_of_lt_of_le hlt hgap
    _ = 2 ^ (bits + 1) := by rw [Nat.pow_succ, Nat.mul_two]
    _ ≤ unitsLimit := two_pow_le_unitsLimit hbits

/-- A whole number of 64 digits is rounded to the nearest double. -/
theorem ofNat_nearest {n : Nat} (hn : n < 2 ^ (64 : Nat)) :
    ∃ m : Magnitude, ofNat n = .finite false m ∧ m.Nearest (n * unitsPerOne) := by
  have hlt := @mul_unitsPerOne_lt n 64 hn
  have hlimit := roundUnits_lt_unitsLimit (by decide) hlt
  refine ⟨⟨_, fits_roundUnits _ 1, hlimit⟩, ?_, nearest_roundUnits rfl⟩
  unfold ofNat ofUnits ofRatio
  rw [dif_pos hlimit]

end Double

end InlineCache
