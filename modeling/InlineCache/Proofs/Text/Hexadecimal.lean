import InlineCache.Proofs.Text.Index

-- Powers of whole numbers are the ones of core, also where another definition of powers is in scope.
attribute [local instance (high)] instPowNat

namespace InlineCache.Text

/-- The hexadecimal digits, the letters among them in both cases. -/
def hexDigits : List Char := "0123456789abcdefABCDEF".toList

/-- What a hexadecimal digit stands for. -/
def hexValue (c : Char) : Nat := "0123456789abcdef".toList.idxOf c.toLower

/-- One or more hexadecimal digits, and the number that they denote. -/
structure HexText (digits : List Char) (n : Nat) : Prop where
  ne_nil : digits ≠ []
  mem_hexDigits : ∀ c ∈ digits, c ∈ hexDigits
  value_eq : Positional.ofDigits 16 (digits.map hexValue) = n

/-- Whether a text is one of hexadecimal digits can be computed. -/
theorem hexText_of_all {digits : List Char} {n : Nat} (hne : digits ≠ [])
    (hall : digits.all hexDigits.contains = true)
    (hvalue : Positional.ofDigits 16 (digits.map hexValue) = n) :
    HexText digits n :=
  ⟨hne, fun c hc => List.contains_iff_mem.1 (List.all_eq_true.1 hall c hc), hvalue⟩

private theorem digitValue?_of_mem_hexDigits {c : Char} (hc : c ∈ hexDigits) :
    hexValue c < 16 ∧ digitValue? c = some (hexValue c) := by
  have hall : (hexDigits.all fun c => hexValue c < 16 && digitValue? c == some (hexValue c)) = true := by
    decide
  have hboth := List.all_eq_true.1 hall c hc
  rw [Bool.and_eq_true, decide_eq_true_eq, beq_iff_eq] at hboth
  exact hboth

/-- A character in a range is one of those that are counted up from the first of the range. -/
theorem exists_eq_ofNat_add {first last c : Char} (hlow : first ≤ c) (hhigh : c ≤ last) :
    ∃ k < last.toNat - first.toNat + 1, c = Char.ofNat (first.toNat + k) := by
  have hlow' : first.toNat ≤ c.toNat := hlow
  have hhigh' : c.toNat ≤ last.toNat := hhigh
  refine ⟨c.toNat - first.toNat, by omega, ?_⟩
  rw [Nat.add_sub_cancel' hlow', Char.ofNat_toNat]

private theorem mem_hexDigits_of_digitValue? {c : Char} {d : Nat} (hd : digitValue? c = some d) :
    c ∈ hexDigits := by
  have hdigits : ∀ k < 10, Char.ofNat ('0'.toNat + k) ∈ hexDigits := by decide
  have hsmall : ∀ k < 6, Char.ofNat ('a'.toNat + k) ∈ hexDigits := by decide
  have hcapital : ∀ k < 6, Char.ofNat ('A'.toNat + k) ∈ hexDigits := by decide
  unfold digitValue? at hd
  split at hd
  · next hrange =>
    obtain ⟨k, hk, rfl⟩ := exists_eq_ofNat_add hrange.1 hrange.2
    exact hdigits k hk
  · split at hd
    · next hrange =>
      obtain ⟨k, hk, rfl⟩ := exists_eq_ofNat_add hrange.1 hrange.2
      exact hsmall k hk
    · split at hd
      · next hrange =>
        obtain ⟨k, hk, rfl⟩ := exists_eq_ofNat_add hrange.1 hrange.2
        exact hcapital k hk
      · cases hd

/-- Digits that are added at the end make no number smaller. -/
theorem le_foldl_appendDigit {base : Nat} (hbase : 0 < base) (value : Nat) (digits : List Nat) :
    value ≤ digits.foldl (Positional.appendDigit base) value := by
  rw [Positional.foldl_appendDigit]
  exact Nat.le_trans (Nat.le_mul_of_pos_right value (Nat.pow_pos hbase)) (Nat.le_add_right _ _)

/-- Reading digits on from a value appends them to it, and gives up just if another character is among them
or the number gets too large. That it does not on the way follows from what it is in the end. -/
theorem readDigits_sixteen_eq_some_iff {limit n : Nat} {s : List Char} {value : Nat} :
    readDigits 16 limit s value = some n ↔
      (∀ c ∈ s, c ∈ hexDigits) ∧ (s.map hexValue).foldl (Positional.appendDigit 16) value = n ∧
        (s ≠ [] → n < limit) := by
  induction s generalizing value with
  | nil => simp [readDigits]
  | cons c s ih =>
    have hle := le_foldl_appendDigit (by decide : 0 < 16) (value * 16 + hexValue c) (s.map hexValue)
    rw [readDigits, List.map_cons, List.foldl_cons, Positional.appendDigit]
    constructor
    · intro hread
      split at hread
      · next d hd =>
        have hc := mem_hexDigits_of_digitValue? hd
        obtain rfl : hexValue c = d := Option.some.inj ((digitValue?_of_mem_hexDigits hc).2.symm.trans hd)
        split at hread
        · next hbounds =>
          obtain ⟨hs, hvalue, hlt⟩ := ih.1 hread
          refine ⟨List.forall_mem_cons.2 ⟨hc, hs⟩, hvalue, fun _ => ?_⟩
          by_cases hnil : s = []
          · subst hnil
            cases hvalue
            exact hbounds.2
          · exact hlt hnil
        · cases hread
      · cases hread
    · rintro ⟨hs, hvalue, hlt⟩
      obtain ⟨hc, hs⟩ := List.forall_mem_cons.1 hs
      obtain ⟨hsixteen, hd⟩ := digitValue?_of_mem_hexDigits hc
      have hn : n < limit := hlt (List.cons_ne_nil _ _)
      simp only [hd]
      rw [if_pos ⟨hsixteen, by omega⟩]
      exact ih.2 ⟨hs, hvalue, fun _ => hn⟩

/-- The digits of a hexadecimal number as they are read, below a limit: at most one plus sign may come before
them. -/
def HexRead (limit : Nat) (s : List Char) (n : Nat) : Prop :=
  n < limit ∧ (HexText s n ∨ ∃ digits, s = '+' :: digits ∧ HexText digits n)

theorem readBounded_sixteen_eq_some_iff {limit n : Nat} {s : List Char} :
    readBounded 16 limit s = some n ↔ HexRead limit s n := by
  have hread {digits : List Char} : (if digits.isEmpty then none else readDigits 16 limit digits 0) =
      some n ↔ n < limit ∧ HexText digits n := by
    constructor
    · intro hsome
      split at hsome
      · cases hsome
      · next hempty =>
        have hne : digits ≠ [] := fun heq => hempty (by rw [heq]; rfl)
        obtain ⟨hmem, hvalue, hlt⟩ := readDigits_sixteen_eq_some_iff.1 hsome
        exact ⟨hlt hne, hne, hmem, (Positional.ofDigits_eq_foldl _ _).trans hvalue⟩
    · rintro ⟨hlt, hne, hmem, hvalue⟩
      rw [if_neg (by simpa using hne)]
      exact readDigits_sixteen_eq_some_iff.2
        ⟨hmem, (Positional.ofDigits_eq_foldl _ _).symm.trans hvalue, fun _ => hlt⟩
  unfold readBounded
  split
  · next rest =>
    have hplus : ¬ HexText ('+' :: rest) n := fun htext =>
      absurd (htext.mem_hexDigits '+' List.mem_cons_self) (by decide)
    rw [hread, HexRead]
    simp [hplus]
  · next hnot =>
    rw [hread, HexRead]
    exact and_congr_right fun _ => ⟨.inl, fun h => h.resolve_right fun ⟨digits, heq, _⟩ => hnot digits heq⟩

example : readBounded 16 1000 "+0fF".toList = some 255 ∧ readBounded 16 1000 "0x10".toList = none := by decide

/-- The text without blanks around it begins with `0x` or `0X`, and goes on with `rest`. -/
def AfterPrefix (s : String) (rest : List Char) : Prop :=
  trim s.toList = '0' :: 'x' :: rest ∨ trim s.toList = '0' :: 'X' :: rest

theorem toDouble_of_afterPrefix {s : String} {rest : List Char} (hs : AfterPrefix s rest) :
    toDouble s.toList = ((readBounded 16 (2 ^ (64 : Nat)) rest).map Double.ofNat).getD .nan := by
  have hlimit : 2 ^ (64 : Nat) = 0x10000000000000000 := rfl
  unfold toDouble
  rw [hlimit]
  rcases hs with hs | hs
  all_goals
    simp only [hs]
    cases readBounded 16 0x10000000000000000 rest with
    | none => rw [Option.map_none, Option.getD_none]
    | some n => rw [Option.map_some, Option.getD_some]

end InlineCache.Text
