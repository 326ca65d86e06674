import InlineCache.Text.Numeral

namespace InlineCache.Text

private theorem digitValue?_digitChar {d : Nat} (hd : d < 10) :
    digitValue? (Nat.digitChar d) = some d := by
  have hall : ∀ d < 10, digitValue? (Nat.digitChar d) = some d := by decide
  exact hall d hd

theorem readDigits_append {base limit : Nat} (s t : List Char) (v : Nat) :
    readDigits base limit (s ++ t) v =
      (readDigits base limit s v).bind (readDigits base limit t) := by
  induction s generalizing v with
  | nil => rfl
  | cons c s ih =>
    simp only [List.cons_append, readDigits]
    split
    · split
      · exact ih _
      · rfl
    · rfl

/-- The decimal digits of a number are read as the number. -/
theorem readDigits_toDigits {limit n : Nat} (hn : n < limit) :
    readDigits 10 limit (Nat.toDigits 10 n) 0 = some n := by
  induction n using Nat.strongRecOn with
  | ind n ih =>
    by_cases hlt : n < 10
    · rw [Nat.toDigits_of_lt_base hlt]
      simp [readDigits, digitValue?_digitChar hlt, hlt, hn]
    · have hdiv : n / 10 < n := by omega
      have hmod : n % 10 < 10 := Nat.mod_lt n (by decide)
      have hsum : n / 10 * 10 + n % 10 = n := by omega
      rw [Nat.toDigits_of_base_le (by decide) (by omega), readDigits_append,
        ih _ hdiv (by omega)]
      simp [readDigits, digitValue?_digitChar hmod, hmod, hsum, hn]

/-- Only the digits of zero begin with a zero. -/
theorem head?_toDigits_ne {n : Nat} (hn : 0 < n) : (Nat.toDigits 10 n).head? ≠ some '0' := by
  induction n using Nat.strongRecOn with
  | ind n ih =>
    by_cases hlt : n < 10
    · have hall : ∀ d < 10, 0 < d → Nat.digitChar d ≠ '0' := by decide
      rw [Nat.toDigits_of_lt_base hlt]
      simpa using hall n hlt hn
    · have hdiv : (Nat.toDigits 10 (n / 10)).head? ≠ some '0' := ih _ (by omega) (by omega)
      obtain ⟨c, rest, heq⟩ := List.exists_cons_of_ne_nil (Nat.toDigits_ne_nil (n := n / 10) (b := 10))
      rw [Nat.toDigits_of_base_le (by decide) (by omega), heq]
      rw [heq] at hdiv
      exact hdiv

theorem notMem_toDigits {c : Char} (hc : c.isDigit = false) (n : Nat) : c ∉ Nat.toDigits 10 n := by
  intro hmem
  rw [Nat.isDigit_of_mem_toDigits (by decide) (by decide) hmem] at hc
  cases hc

private theorem readBounded_toDigits {limit n : Nat} (hn : n < limit) :
    readBounded 10 limit (Nat.toDigits 10 n) = some n := by
  have hempty : (Nat.toDigits 10 n).isEmpty = false := by simp
  unfold readBounded
  split
  · next rest heq =>
    have hplus : '+' ∈ Nat.toDigits 10 n := by
      rw [heq]
      exact List.mem_cons_self
    exact absurd hplus (notMem_toDigits (by decide) n)
  · simp only [hempty, Bool.false_eq_true, if_false]
    exact readDigits_toDigits hn

/-- The text of a number is the key of the element that the number names. -/
theorem arrayIndex?_repr {n : Nat} (hn : n < indexLimit) : arrayIndex? (Nat.repr n) = some n := by
  unfold arrayIndex?
  rw [Nat.toList_repr]
  split
  · next c rest heq =>
    rcases Nat.eq_zero_or_pos n with rfl | hpos
    · rw [Nat.toDigits_zero] at heq
      cases heq
    · exact absurd (by rw [heq]; rfl) (head?_toDigits_ne hpos)
  · exact readBounded_toDigits hn

theorem repr_ne_length (n : Nat) : Nat.repr n ≠ "length" := by
  intro heq
  have hmem : 'l' ∈ Nat.toDigits 10 n := by
    rw [← Nat.toList_repr, heq]
    decide
  exact notMem_toDigits (by decide) n hmem

end InlineCache.Text
