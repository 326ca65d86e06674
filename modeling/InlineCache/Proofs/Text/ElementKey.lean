import InlineCache.Proofs.Text.Index
import Mathlib.Data.List.Induction

namespace InlineCache.Text

/-- The decimal text of a number after some zeros. -/
def padded (zeros n : Nat) : List Char := List.replicate zeros '0' ++ Nat.toDigits 10 n

/-- The decimal text of a number after a plus sign and some zeros. -/
def signedNumeral (zeros n : Nat) : String := String.ofList ('+' :: padded zeros n)

@[simp] theorem toList_signedNumeral (zeros n : Nat) :
    (signedNumeral zeros n).toList = '+' :: padded zeros n := String.toList_ofList

@[simp] theorem padded_zero (n : Nat) : padded 0 n = Nat.toDigits 10 n := rfl

private theorem padded_succ (zeros n : Nat) : padded (zeros + 1) n = '0' :: padded zeros n := rfl

private theorem padded_ne_nil (zeros n : Nat) : padded zeros n ≠ [] :=
  List.append_ne_nil_of_right_ne_nil _ Nat.toDigits_ne_nil

private theorem isDigit_of_mem_padded {zeros n : Nat} {c : Char} (hc : c ∈ padded zeros n) :
    c.isDigit = true := by
  rcases List.mem_append.1 hc with hzero | hdigit
  · rw [List.eq_of_mem_replicate hzero]
    rfl
  · exact Nat.isDigit_of_mem_toDigits (by decide) (by decide) hdigit

private theorem eq_digitChar {c : Char} {d : Nat} (hc : digitValue? c = some d) (hd : d < 10) :
    c = Nat.digitChar d := by
  unfold digitValue? at hc
  split at hc
  · next hrange =>
    cases hc
    have hle : 48 ≤ c.toNat := hrange.1
    apply Char.toNat_inj.1
    rw [Nat.toNat_digitChar_of_lt_ten hd]
    change c.toNat = 48 + (c.toNat - 48)
    omega
  · split at hc
    · cases hc
      omega
    · split at hc
      · cases hc
        omega
      · cases hc

private theorem readDigits_singleton {limit n value : Nat} {c : Char}
    (hread : readDigits 10 limit [c] value = some n) :
    ∃ d, d < 10 ∧ c = Nat.digitChar d ∧ n = value * 10 + d ∧ n < limit := by
  unfold readDigits at hread
  split at hread
  · next d hd =>
    split at hread
    · next hboth =>
      cases hread
      exact ⟨d, hboth.1, eq_digitChar hd hboth.1, rfl, hboth.2⟩
    · cases hread
  · cases hread

/-- One digit more at the end of a decimal text. -/
theorem toDigits_append_digitChar {n d : Nat} (hn : 0 < n) (hd : d < 10) :
    Nat.toDigits 10 n ++ [Nat.digitChar d] = Nat.toDigits 10 (n * 10 + d) := by
  have happend := Nat.toDigits_append_toDigits (b := 10) (n := n) (d := d) (by decide) hn hd
  rw [Nat.toDigits_of_lt_base hd] at happend
  rw [happend, Nat.mul_comm]

private theorem padded_append_digitChar (zeros n : Nat) {d : Nat} (hd : d < 10) :
    ∃ zeros', padded zeros n ++ [Nat.digitChar d] = padded zeros' (n * 10 + d) := by
  rcases Nat.eq_zero_or_pos n with rfl | hpos
  · -- a zero in front of the new digit is one of the zeros to fill up with
    refine ⟨zeros + 1, ?_⟩
    rw [padded, padded, Nat.toDigits_zero, Nat.zero_mul, Nat.zero_add, Nat.toDigits_of_lt_base hd,
      List.replicate_succ']
  · exact ⟨zeros, by rw [padded, padded, List.append_assoc, toDigits_append_digitChar hpos hd]⟩

/-- What is read as a number is its decimal text, after zeros. -/
theorem eq_padded_of_readDigits {limit n : Nat} {s : List Char} (hne : s ≠ [])
    (hread : readDigits 10 limit s 0 = some n) : n < limit ∧ ∃ zeros, s = padded zeros n := by
  induction s using List.reverseRecOn generalizing n with
  | nil => exact absurd rfl hne
  | append_singleton s c ih =>
    rw [readDigits_append, Option.bind_eq_some_iff] at hread
    obtain ⟨value, hvalue, hlast⟩ := hread
    obtain ⟨d, hd, rfl, rfl, hlt⟩ := readDigits_singleton hlast
    refine ⟨hlt, ?_⟩
    by_cases hs : s = []
    · subst hs
      cases hvalue
      exact ⟨0, by rw [padded_zero, Nat.zero_mul, Nat.zero_add, Nat.toDigits_of_lt_base hd]; rfl⟩
    · obtain ⟨-, zeros, rfl⟩ := ih hs hvalue
      exact padded_append_digitChar zeros value hd

private theorem readDigits_padded {limit n : Nat} (zeros : Nat) (hn : n < limit) :
    readDigits 10 limit (padded zeros n) 0 = some n := by
  have hlimit : 0 < limit := Nat.zero_lt_of_lt hn
  induction zeros with
  | zero => exact readDigits_toDigits hn
  | succ zeros ih =>
    rw [padded_succ, readDigits]
    simpa [digitValue?, hlimit] using ih

private theorem readBounded_eq_some_iff {limit n : Nat} {s : List Char} :
    readBounded 10 limit s = some n ↔
      n < limit ∧ ∃ zeros, s = padded zeros n ∨ s = '+' :: padded zeros n := by
  have hread {digits : List Char} : (if digits.isEmpty then none else readDigits 10 limit digits 0) =
      some n ↔ n < limit ∧ ∃ zeros, digits = padded zeros n := by
    constructor
    · intro hsome
      split at hsome
      · cases hsome
      · next hne => exact eq_padded_of_readDigits (fun heq => hne (by rw [heq]; rfl)) hsome
    · rintro ⟨hlt, zeros, rfl⟩
      have hempty : (padded zeros n).isEmpty = false :=
        List.isEmpty_eq_false_iff.2 (padded_ne_nil zeros n)
      rw [hempty, if_neg Bool.false_ne_true, readDigits_padded zeros hlt]
  have hplus {rest : List Char} {zeros : Nat} : '+' :: rest ≠ padded zeros n := fun heq =>
    absurd (isDigit_of_mem_padded (heq ▸ List.mem_cons_self)) (by decide)
  unfold readBounded
  split
  · next rest =>
    rw [hread]
    simp [hplus]
  · next hnot =>
    rw [hread]
    refine and_congr_right fun _ => exists_congr fun zeros => ?_
    exact ⟨.inl, fun h => h.resolve_right (hnot _)⟩

/-- A key of an element: the decimal text of the index, or such a text after a plus sign and any number of
zeros. -/
def NamesElement (key : String) (n : Nat) : Prop :=
  n < indexLimit ∧ (key = Nat.repr n ∨ ∃ zeros, key = signedNumeral zeros n)

theorem arrayIndex?_eq_some_iff {key : String} {n : Nat} :
    arrayIndex? key = some n ↔ NamesElement key n := by
  have hrepr : key = Nat.repr n ↔ key.toList = padded 0 n := by
    rw [← String.toList_inj, Nat.toList_repr, padded_zero]
  have hsigned (zeros : Nat) : key = signedNumeral zeros n ↔ key.toList = '+' :: padded zeros n := by
    rw [← String.toList_inj, toList_signedNumeral]
  rw [NamesElement, hrepr]
  simp only [hsigned]
  unfold arrayIndex?
  split
  · next c rest heq =>
    -- no decimal text of more than one digit begins with a zero
    have hne : '0' :: c :: rest ≠ Nat.toDigits 10 n := by
      intro htext
      rcases Nat.eq_zero_or_pos n with rfl | hpos
      · rw [Nat.toDigits_zero] at htext
        cases htext
      · exact head?_toDigits_ne hpos (by rw [← htext]; rfl)
    rw [heq]
    simp [hne]
  · next hnot =>
    rw [readBounded_eq_some_iff]
    refine and_congr_right fun _ => ⟨?_, ?_⟩
    · rintro ⟨zeros, htext | htext⟩
      · cases zeros with
        | zero => exact .inl htext
        | succ zeros =>
          obtain ⟨c, rest, hrest⟩ := List.exists_cons_of_ne_nil (padded_ne_nil zeros n)
          rw [padded_succ, hrest] at htext
          exact absurd htext (hnot c rest)
      · exact .inr ⟨zeros, htext⟩
    · rintro (htext | ⟨zeros, htext⟩)
      · exact ⟨0, .inl htext⟩
      · exact ⟨zeros, .inr htext⟩

example : arrayIndex? "+007" = some 7 ∧ arrayIndex? "007" = none := by decide

/-- No two numbers have the same text. -/
theorem eq_of_repr_eq {n n' : Nat} (heq : Nat.repr n = Nat.repr n') : n = n' := by
  have hdigits : Nat.toDigits 10 n = Nat.toDigits 10 n' := by
    rw [← Nat.toList_repr, heq, Nat.toList_repr]
  have hread : readDigits 10 (n + n' + 1) (Nat.toDigits 10 n) 0 = some n := readDigits_toDigits (by omega)
  have hread' : readDigits 10 (n + n' + 1) (Nat.toDigits 10 n') 0 = some n' :=
    readDigits_toDigits (by omega)
  rw [hdigits, hread'] at hread
  exact (Option.some.inj hread).symm

private theorem mem_signedNumeral (zeros n : Nat) : '+' ∈ (signedNumeral zeros n).toList := by
  rw [toList_signedNumeral]
  exact List.mem_cons_self

private theorem plus_notMem_repr (n : Nat) : '+' ∉ (Nat.repr n).toList := by
  rw [Nat.toList_repr]
  exact notMem_toDigits (by decide) n

/-- A key that names an element is of digits, with at most one sign before them. -/
theorem arrayIndex?_eq_none_of_mem {key : String} {c : Char} (hmem : c ∈ key.toList)
    (hdigit : c.isDigit = false) (hplus : c ≠ '+') : arrayIndex? key = none := by
  rw [Option.eq_none_iff_forall_ne_some]
  intro n hindex
  obtain ⟨-, rfl | ⟨zeros, rfl⟩⟩ := arrayIndex?_eq_some_iff.1 hindex
  · rw [Nat.toList_repr] at hmem
    exact notMem_toDigits hdigit n hmem
  · rw [toList_signedNumeral] at hmem
    rcases List.mem_cons.1 hmem with heq | htail
    · exact hplus heq
    · rw [isDigit_of_mem_padded htail] at hdigit
      cases hdigit

/-- The text of a number that is too large names no element. -/
theorem arrayIndex?_repr_eq_none {n : Nat} (hn : indexLimit ≤ n) : arrayIndex? (Nat.repr n) = none := by
  rw [Option.eq_none_iff_forall_ne_some]
  intro n' hindex
  obtain ⟨hlt, heq | ⟨zeros, heq⟩⟩ := arrayIndex?_eq_some_iff.1 hindex
  · rw [← eq_of_repr_eq heq] at hlt
    omega
  · exact plus_notMem_repr n (heq ▸ mem_signedNumeral zeros n')

/-- Keys without a sign name different elements, if they are different. -/
theorem NamesElement.eq_of_unsigned {key key' : String} {n : Nat} (hkey : NamesElement key n)
    (hkey' : NamesElement key' n) (hplus : '+' ∉ key.toList) (hplus' : '+' ∉ key'.toList) : key = key' := by
  have hplain {key : String} (hkey : NamesElement key n) (hplus : '+' ∉ key.toList) : key = Nat.repr n := by
    obtain ⟨-, heq | ⟨zeros, rfl⟩⟩ := hkey
    · exact heq
    · exact absurd (mem_signedNumeral zeros n) hplus
  rw [hplain hkey hplus, hplain hkey' hplus']

end InlineCache.Text
