import InlineCache.Proofs.Number.Shortest
import InlineCache.Proofs.Text.ElementKey

namespace InlineCache

-- Powers of whole numbers are the ones of core, also where another definition of powers is in scope.
attribute [local instance (high)] instPowNat
attribute [local irreducible] unitsPerOne

/-- A text that is neither the name of a length nor the key of an element. -/
def Text.Ordinary (key : String) : Prop := key ≠ "length" ∧ arrayIndex? key = none

/-- A text with a digit is not the name of a length, and with a sign, a point or an exponent no key of an
element. -/
theorem Text.ordinary_of_mem {key : String} {mark digit : Char} (hmark : mark ∈ key.toList)
    (hcases : mark = '.' ∨ mark = 'e' ∨ mark = '-') (hdigit : digit ∈ key.toList)
    (hisDigit : digit.isDigit = true) : Ordinary key := by
  constructor
  · rintro rfl
    have hnone : "length".toList.all (fun c => !c.isDigit) = true := by decide
    have hnot := List.all_eq_true.1 hnone digit hdigit
    rw [hisDigit] at hnot
    cases hnot
  · rcases hcases with rfl | rfl | rfl <;>
      exact arrayIndex?_eq_none_of_mem hmark (by decide) (by decide)

private theorem exists_isDigit_mem_toDigits (n : Nat) : ∃ c ∈ Nat.toDigits 10 n, c.isDigit = true := by
  obtain ⟨c, rest, heq⟩ := List.exists_cons_of_ne_nil (Nat.toDigits_ne_nil (n := n) (b := 10))
  have hmem : c ∈ Nat.toDigits 10 n := heq ▸ List.mem_cons_self
  exact ⟨c, hmem, Nat.isDigit_of_mem_toDigits (by decide) (by decide) hmem⟩

namespace DecimalLayout

variable {layout : DecimalLayout} {d : Decimal}

private theorem e_mem_withExponent (digits : List Char) (point : Int) :
    'e' ∈ withExponent digits point := by
  unfold withExponent
  dsimp only
  split <;> simp

private theorem mem_withExponent {c : Char} {digits : List Char} (hc : c ∈ digits) (point : Int) :
    c ∈ withExponent digits point := by
  unfold withExponent
  dsimp only
  split
  · cases hc
  · rw [List.mem_singleton.1 hc]
    exact List.mem_cons_self
  · rcases List.mem_cons.1 hc with rfl | hrest
    · exact List.mem_cons_self
    · simp [hrest]

private theorem mem_positional (layout : DecimalLayout) {c : Char} {digits : List Char}
    (hc : c ∈ digits) (point : Int) : c ∈ layout.positional digits point := by
  unfold positional
  split
  · simp [hc]
  · split
    · simp [hc]
    · rw [← List.take_append_drop point.toNat digits] at hc
      rcases List.mem_append.1 hc with htake | hdrop
      · exact List.mem_append_left _ htake
      · exact List.mem_append_right _ (List.mem_cons_of_mem _ hdrop)

/-- All the digits of a decimal are in its text. -/
theorem mem_write (layout : DecimalLayout) {c : Char} (hc : c ∈ d.digitChars) : c ∈ layout.write d := by
  unfold write
  split
  · exact mem_positional layout hc d.point
  · exact mem_withExponent hc d.point

/-- A decimal with digits after its point is written with a point or an exponent. -/
theorem mark_mem_write (hdigits : 0 < d.point → d.point ≤ layout.greatestPoint →
    d.point < d.digitChars.length) : '.' ∈ layout.write d ∨ 'e' ∈ layout.write d := by
  unfold write
  split
  · next hrange =>
    refine .inl ?_
    unfold positional
    split
    · simp
    · next hpos =>
      have hlength := hdigits (Int.not_le.1 hpos) hrange.2
      rw [if_neg (by omega)]
      simp
  · exact .inr (e_mem_withExponent _ _)

end DecimalLayout

namespace Double

/-- A number that is not written out as a whole number has a point or an exponent in its text. -/
theorem mark_mem_scriptLayout {m : Magnitude}
    (hm : ¬ unitsPerOne ∣ m.units ∨ wholeTextLimit * unitsPerOne ≤ m.units) :
    '.' ∈ scriptLayout.write (Decimal.shortest scriptLayout.tieUp m) ∨
      'e' ∈ scriptLayout.write (Decimal.shortest scriptLayout.tieUp m) := by
  refine DecimalLayout.mark_mem_write fun hpos hle => ?_
  rcases hm with hfraction | hlarge
  · exact Decimal.point_lt_length hfraction hpos hle
  · have hsixteen : (Decimal.shortest scriptLayout.tieUp m).point ≤ 16 := hle
    have hpoint : (Decimal.shortest scriptLayout.tieUp m).point = 0 ∨
        16 < (Decimal.shortest scriptLayout.tieUp m).point := Decimal.point_of_large hlarge
    omega

private theorem toString_negSucc (n : Nat) : toString (Int.negSucc n) = "-" ++ Nat.repr (n + 1) := rfl

private theorem ordinary_of_negative {n : Int} (hn : n < 0) : Text.Ordinary (toString n) := by
  obtain ⟨k, rfl⟩ : ∃ k, n = Int.negSucc k := Int.eq_negSucc_of_lt_zero hn
  obtain ⟨c, hc, hdigit⟩ := exists_isDigit_mem_toDigits (k + 1)
  rw [toString_negSucc]
  have hminus : '-' ∈ ("-" ++ Nat.repr (k + 1)).toList := by simp
  refine Text.ordinary_of_mem hminus (.inr (.inr rfl)) ?_ hdigit
  rw [String.toList_append, Nat.toList_repr]
  exact List.mem_append_right _ hc

private theorem toString_of_nonneg {n : Int} (hn : 0 ≤ n) : toString n = Nat.repr n.toNat := by
  obtain ⟨k, rfl⟩ := Int.eq_ofNat_of_zero_le hn
  rfl

private theorem natAbs_truncate (negative : Bool) (m : Magnitude) :
    (truncate (.finite negative m)).natAbs = m.units / unitsPerOne := by
  cases negative with
  | false => exact Int.natAbs_natCast _
  | true => exact (Int.natAbs_neg _).trans (Int.natAbs_natCast _)

/-- The number of an element is written as the key of the element. -/
theorem scriptText_of_index {d : Double} {n : Nat} (hindex : Operation.indexOfNumber? d = some n) :
    d.scriptText = Nat.repr n := by
  obtain ⟨hintegral, htruncate, hlt⟩ := Operation.indexOfNumber?_eq_some_iff.1 hindex
  cases d with
  | nan | infinite _ => cases hintegral
  | finite negative m =>
    have hdiv : m.units / unitsPerOne < wholeTextLimit := by
      rw [← natAbs_truncate negative]
      have hlimit : Text.indexLimit ≤ wholeTextLimit := by decide
      omega
    have hsmall : m.units < wholeTextLimit * unitsPerOne := (Nat.div_lt_iff_lt_mul unitsPerOne_pos).1 hdiv
    exact (if_pos ⟨hintegral, hsmall⟩).trans (congrArg toString htruncate)

private theorem ordinary_scriptText {d : Double} (hindex : Operation.indexOfNumber? d = none) :
    Text.Ordinary d.scriptText := by
  cases d with
  | nan => exact ⟨by decide, Text.arrayIndex?_eq_none_of_mem (c := 'N') (by decide) (by decide) (by decide)⟩
  | infinite negative =>
    cases negative <;>
      exact ⟨by decide, Text.arrayIndex?_eq_none_of_mem (c := 'I') (by decide) (by decide) (by decide)⟩
  | finite negative m =>
    unfold scriptText
    dsimp only
    split
    · next hwhole =>
      have hrange : ¬ (0 ≤ truncate (.finite negative m) ∧ truncate (.finite negative m) < Text.indexLimit) := by
        intro hrange
        rw [Operation.indexOfNumber?, if_pos ⟨hwhole.1, hrange⟩] at hindex
        cases hindex
      rcases Int.lt_or_le (truncate (.finite negative m)) 0 with hneg | hnonneg
      · exact ordinary_of_negative hneg
      · rw [toString_of_nonneg hnonneg]
        exact ⟨Text.repr_ne_length _, Text.arrayIndex?_repr_eq_none (by omega)⟩
    · next hnot =>
      have hm : ¬ unitsPerOne ∣ m.units ∨ wholeTextLimit * unitsPerOne ≤ m.units := by
        refine Decidable.or_iff_not_imp_right.2 fun hsmall hdvd => hnot ⟨?_, Nat.lt_of_not_le hsmall⟩
        exact beq_iff_eq.2 (Nat.mod_eq_zero_of_dvd hdvd)
      obtain ⟨c, hc, hdigit⟩ :=
        exists_isDigit_mem_toDigits (Decimal.shortest scriptLayout.tieUp m).digits
      have hmem {c : Char} (hc : c ∈ scriptLayout.write (Decimal.shortest scriptLayout.tieUp m)) :
          c ∈ (String.ofList (signChars negative ++
            scriptLayout.write (Decimal.shortest scriptLayout.tieUp m))).toList := by
        rw [String.toList_ofList]
        exact List.mem_append_right _ hc
      have hc' := hmem (DecimalLayout.mem_write scriptLayout hc)
      rcases mark_mem_scriptLayout hm with hpoint | hexponent
      · exact Text.ordinary_of_mem (hmem hpoint) (.inl rfl) hc' hdigit
      · exact Text.ordinary_of_mem (hmem hexponent) (.inr (.inl rfl)) hc' hdigit

/-- The text of a number is the key of an element just if the number is the index of that element. -/
theorem arrayIndex?_scriptText (d : Double) :
    PropertyKey.arrayIndex? d.scriptText = Operation.indexOfNumber? d := by
  cases hindex : Operation.indexOfNumber? d with
  | none => exact (ordinary_scriptText hindex).2
  | some n =>
    rw [scriptText_of_index hindex]
    exact Text.arrayIndex?_repr (Operation.indexOfNumber?_eq_some_iff.1 hindex).2.2

theorem scriptText_ne_length (d : Double) : d.scriptText ≠ "length" := by
  cases hindex : Operation.indexOfNumber? d with
  | none => exact (ordinary_scriptText hindex).1
  | some n =>
    rw [scriptText_of_index hindex]
    exact Text.repr_ne_length n

/-- A whole number is written out digit by digit. -/
theorem scriptText_ofInt {n : Int} (hn : n.natAbs ≤ 2 ^ (53 : Nat)) : (ofInt n).scriptText = toString n := by
  obtain ⟨m, hm, heq⟩ := exists_ofInt_eq_finite hn
  have hintegral := isIntegral_ofInt hn
  have htruncate := truncate_ofInt hn
  have hlimit : n.natAbs < wholeTextLimit := Nat.lt_of_le_of_lt hn (by decide)
  have hsmall : m.units < wholeTextLimit * unitsPerOne := by
    rw [hm]
    exact Nat.mul_lt_mul_of_pos_right hlimit unitsPerOne_pos
  rw [heq] at hintegral htruncate ⊢
  exact (if_pos ⟨hintegral, hsmall⟩).trans (congrArg toString htruncate)

end Double

end InlineCache
