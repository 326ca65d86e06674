import InlineCache.Operation.Compare
import InlineCache.Proofs.Number.Nearest
import InlineCache.Proofs.Text.Hexadecimal

-- Powers of whole numbers are the ones of core, also where another definition of powers is in scope.
attribute [local instance (high)] instPowNat

namespace InlineCache

open Text

/-- The comparisons that do not convert their operands. -/
def CompareOp.isStrict : CompareOp → Bool
  | .strictEq | .strictNe => true
  | _ => false

namespace Operation

/-- Beside an operand that is no string, one value is taken for the other by every comparison that converts
its operands, on either side. -/
structure ComparedAs (v w : Value) : Prop where
  looseEquals_eq : ∀ other : Value, (∀ t, other ≠ .string t) →
    looseEquals v other = looseEquals w other ∧ looseEquals other v = looseEquals other w
  relational_eq : ∀ (op : CompareOp) (other : Value), (∀ t, other ≠ .string t) →
    relational op v other = relational op w other ∧ relational op other v = relational op other w
  compare_eq : ∀ op : CompareOp, op.isStrict = false → ∀ other : Value, (∀ t, other ≠ .string t) →
    compare op v other = compare op w other ∧ compare op other v = compare op other w

variable {s : String} {rest : List Char}

/-- A string is compared as the number of its text. -/
theorem comparedAs_toDouble (s : String) : ComparedAs (.string s) (.double (toDouble s.toList)) := by
  have hloose : ∀ other : Value, (∀ t, other ≠ .string t) →
      looseEquals (.string s) other = looseEquals (.double (toDouble s.toList)) other ∧
        looseEquals other (.string s) = looseEquals other (.double (toDouble s.toList)) := by
    intro other hother
    cases other with
    | string t => exact absurd rfl (hother t)
    | _ => exact ⟨rfl, rfl⟩
  have horder : ∀ (op : CompareOp) (other : Value), (∀ t, other ≠ .string t) →
      relational op (.string s) other = relational op (.double (toDouble s.toList)) other ∧
        relational op other (.string s) = relational op other (.double (toDouble s.toList)) := by
    intro op other hother
    cases other with
    | string t => exact absurd rfl (hother t)
    | _ => exact ⟨rfl, rfl⟩
  refine ⟨hloose, horder, ?_⟩
  intro op hop other hother
  obtain ⟨hleft, hright⟩ := hloose other hother
  cases op with
  | eq => exact ⟨hleft, hright⟩
  | ne => exact ⟨congrArg (Except.map not) hleft, congrArg (Except.map not) hright⟩
  | lt | le | gt | ge => exact horder _ other hother
  | strictEq | strictNe => cases hop

private theorem toNumber_of_hexRead (hs : AfterPrefix s rest) {n : Nat}
    (hread : HexRead (2 ^ (64 : Nat)) rest n) :
    ∃ m : Magnitude, toNumber (.string s) = .ok (.finite false m) ∧ m.Nearest (n * unitsPerOne) := by
  obtain ⟨m, hm, hnearest⟩ := Double.ofNat_nearest hread.1
  refine ⟨m, ?_, hnearest⟩
  rw [toNumber, toDouble_of_afterPrefix hs, readBounded_sixteen_eq_some_iff.2 hread, Option.map_some,
    Option.getD_some, hm]

private theorem toDouble_of_not_hexRead (hs : AfterPrefix s rest)
    (hread : ∀ n, ¬ HexRead (2 ^ (64 : Nat)) rest n) : toDouble s.toList = .nan := by
  have hnone : readBounded 16 (2 ^ (64 : Nat)) rest = none :=
    Option.eq_none_iff_forall_ne_some.2 fun n hsome => hread n (readBounded_sixteen_eq_some_iff.1 hsome)
  rw [toDouble_of_afterPrefix hs, hnone, Option.map_none, Option.getD_none]

/-- A text with the prefix of hexadecimal numbers denotes a number just if hexadecimal digits of a number
below `2 ^ 64` follow, which at most one plus sign may come before. It is then the double nearest to that
number. Every other text with the prefix denotes NaN and is compared as NaN. -/
theorem hexadecimal_texts (hs : AfterPrefix s rest) :
    ((∃ d, toNumber (.string s) = .ok d ∧ d.isNaN = false) ↔ ∃ n, HexRead (2 ^ (64 : Nat)) rest n) ∧
      (∀ n, HexRead (2 ^ (64 : Nat)) rest n → ∃ m : Magnitude,
        toNumber (.string s) = .ok (.finite false m) ∧ m.Nearest (n * unitsPerOne)) ∧
      ((∀ n, ¬ HexRead (2 ^ (64 : Nat)) rest n) →
        toNumber (.string s) = .ok .nan ∧ ComparedAs (.string s) (.double .nan)) := by
  refine ⟨⟨?_, ?_⟩, fun n hread => toNumber_of_hexRead hs hread, ?_⟩
  · rintro ⟨d, hd, hnumber⟩
    refine Classical.byContradiction fun hnone => ?_
    have hnan := toDouble_of_not_hexRead hs (not_exists.1 hnone)
    rw [toNumber, hnan] at hd
    cases hd
    cases hnumber
  · rintro ⟨n, hread⟩
    obtain ⟨m, hm, -⟩ := toNumber_of_hexRead hs hread
    exact ⟨_, hm, rfl⟩
  · intro hread
    have hnan := toDouble_of_not_hexRead hs hread
    refine ⟨by rw [toNumber, hnan], ?_⟩
    rw [← hnan]
    exact comparedAs_toDouble s

/-- Digits in both cases, between blanks. -/
theorem hexadecimal_texts_blanks :
    AfterPrefix " 0XfF\n" ['f', 'F'] ∧
      ∃ m : Magnitude, toNumber (.string " 0XfF\n") = .ok (.finite false m) ∧
        m.Nearest (255 * unitsPerOne) := by
  have hs : AfterPrefix " 0XfF\n" ['f', 'F'] := .inr (by decide)
  have htext : HexText ['f', 'F'] 255 := hexText_of_all (by decide) (by decide) (by decide)
  exact ⟨hs, (hexadecimal_texts hs).2.1 255 ⟨by decide, .inl htext⟩⟩

/-- A plus sign after the prefix is read, too. -/
theorem hexadecimal_text_with_sign :
    ¬ ∀ (s : String) (rest : List Char), AfterPrefix s rest →
      ((∃ d, toNumber (.string s) = .ok d ∧ d.isNaN = false) ↔ ∃ n < 2 ^ (64 : Nat), HexText rest n) := by
  intro hall
  have hs : AfterPrefix "0x+10" ['+', '1', '0'] := .inl (by decide)
  have htext : HexText ['1', '0'] 16 := hexText_of_all (by decide) (by decide) (by decide)
  obtain ⟨m, hm, -⟩ := toNumber_of_hexRead hs ⟨by decide, .inr ⟨_, rfl, htext⟩⟩
  obtain ⟨n, -, hplain⟩ := (hall _ _ hs).1 ⟨_, hm, rfl⟩
  exact absurd (hplain.mem_hexDigits '+' List.mem_cons_self) (by decide)

end Operation

end InlineCache
