import InlineCache.Proofs.Operation.NumberIndex

namespace InlineCache

namespace Text

/-- The characters that take one unit. -/
def FirstPlane (c : Char) : Prop := c.toNat < 0x10000

private theorem unitsOf_of_firstPlane {c : Char} (hc : FirstPlane c) : unitsOf c = 1 := if_pos hc

private theorem unitsOf_of_not_firstPlane {c : Char} (hc : ¬ FirstPlane c) : unitsOf c = 2 := if_neg hc

private theorem unitCount_ofList_cons (c : Char) (cs : List Char) :
    unitCount (String.ofList (c :: cs)) = unitsOf c + unitCount (String.ofList cs) := by
  rw [unitCount, unitCount, String.toList_ofList, String.toList_ofList, List.foldr_cons]

private theorem unitCount_bounds (cs : List Char) :
    cs.length ≤ unitCount (String.ofList cs) ∧ unitCount (String.ofList cs) ≤ 2 * cs.length ∧
      (unitCount (String.ofList cs) = cs.length ↔ ∀ c ∈ cs, FirstPlane c) := by
  induction cs with
  | nil => exact ⟨Nat.le_refl 0, Nat.le_refl 0, fun _ _ hc => absurd hc List.not_mem_nil, fun _ => rfl⟩
  | cons c cs ih =>
    obtain ⟨hle, hge, hiff⟩ := ih
    rw [unitCount_ofList_cons, List.length_cons, List.forall_mem_cons, ← hiff]
    by_cases hc : FirstPlane c
    · rw [unitsOf_of_firstPlane hc]
      exact ⟨by omega, by omega, fun heq => ⟨hc, by omega⟩, fun hrest => by omega⟩
    · rw [unitsOf_of_not_firstPlane hc]
      exact ⟨by omega, by omega, fun heq => by omega, fun hrest => absurd hrest.1 hc⟩

private theorem length_le_unitCount (s : String) : s.length ≤ unitCount s := by
  simpa [String.length_toList] using (unitCount_bounds s.toList).1

private theorem unitCount_le (s : String) : unitCount s ≤ 2 * s.length := by
  simpa [String.length_toList] using (unitCount_bounds s.toList).2.1

private theorem unitCount_eq_length_iff (s : String) :
    unitCount s = s.length ↔ ∀ c ∈ s.toList, FirstPlane c := by
  simpa [String.length_toList] using (unitCount_bounds s.toList).2.2

private theorem unitCount_singleton (c : Char) : unitCount (String.ofList [c]) = unitsOf c := by
  rw [unitCount_ofList_cons]
  rfl

end Text

namespace Operation

variable {h : Heap} {s : String} {i : Int32}

/-- A character of a string, as a string of its own. -/
def characterAt (s : String) (n : Nat) : Value :=
  s.toList[n]?.elim .undefined fun c => .string (String.ofList [c])

private theorem stringProperty_of_element {key : PropertyKey} {n : Nat}
    (hindex : key.arrayIndex? = some n) : stringProperty s key = characterAt s n := by
  unfold stringProperty characterAt
  simp only [if_neg (ne_length_of_arrayIndex? hindex), hindex]
  cases s.toList[n]? <;> rfl

section

variable (h s) (hi : 0 ≤ i.toInt)

include hi

/-- An integer reads the character of a string that it counts to, if there is one. -/
theorem getElement_string :
    getElement h (.string s) (.int32 i) = .ok (characterAt s i.toInt.toNat) := by
  have hget : getElement h (.string s) (.int32 i) =
      (toPropertyKey h (.int32 i)).bind (getProperty h (.string s)) := rfl
  rw [hget, StubFits.toPropertyKey_int32 h hi]
  exact congrArg Except.ok (stringProperty_of_element (Text.arrayIndex?_repr (lt_indexLimit_of_int32 i)))

private theorem hasOwn_string :
    hasOwn h (.int32 i) (.string s) = .ok (decide (i.toInt.toNat < s.length)) := by
  have hindex : PropertyKey.arrayIndex? (Nat.repr i.toInt.toNat) = some i.toInt.toNat :=
    Text.arrayIndex?_repr (lt_indexLimit_of_int32 i)
  simp only [hasOwn, StubFits.toPropertyKey_int32 h hi, bind, Except.bind,
    decide_eq_false (Text.repr_ne_length _), Bool.false_or, hindex]
  rfl

end

/-- The integer that is read as the length of a string. -/
def lengthOf (s : String) : Int32 := Int32.ofInt (Text.unitCount s)

/-- An integer counts to a character just if it is below the length, and the character is one unit. -/
structure IndexedByLength (h : Heap) (s : String) (i : Int32) : Prop where
  own : hasOwn h (.int32 i) (.string s) = .ok (decide (i.toInt < (lengthOf s).toInt))
  unit : i.toInt < (lengthOf s).toInt → ∃ unit, Text.unitCount unit = 1 ∧
    getElement h (.string s) (.int32 i) = .ok (.string unit)
  absent : (lengthOf s).toInt ≤ i.toInt → getElement h (.string s) (.int32 i) = .ok .undefined

private theorem toInt_lengthOf (hsmall : Text.unitCount s < 0x80000000) :
    (lengthOf s).toInt = Text.unitCount s := by
  rw [lengthOf, Int32.toInt_ofInt_of_le (by omega) (by omega)]

/-- An integer cannot hold a greater length, and turns negative. -/
theorem toInt_lengthOf_neg (hlarge : 0x80000000 ≤ Text.unitCount s)
    (hlt : Text.unitCount s < 0x100000000) : (lengthOf s).toInt < 0 := by
  rw [lengthOf, Int32.toInt_ofInt, Int32.size, Int.bmod_def]
  split <;> omega

private theorem IndexedByLength.lt_iff (hindexed : IndexedByLength h s i) (hi : 0 ≤ i.toInt) :
    i.toInt.toNat < s.length ↔ i.toInt < (lengthOf s).toInt := by
  have hown := hindexed.own
  rw [hasOwn_string h s hi] at hown
  exact decide_eq_decide.1 (Except.ok.inj hown)

/-- Where all indices agree with the length, there are as many units as characters. -/
theorem unitCount_of_indexed (hall : ∀ i : Int32, 0 ≤ i.toInt → IndexedByLength h s i) :
    Text.unitCount s = s.length ∧ Text.unitCount s < 0x80000000 := by
  have hlt_iff {i : Int32} (hi : 0 ≤ i.toInt) := (hall i hi).lt_iff hi
  have hle := Text.length_le_unitCount s
  have hge := Text.unitCount_le s
  have hshort : s.length < 0x80000000 := by
    -- the greatest integer is below no length
    have hlast := hlt_iff (i := Int32.maxValue) (by decide)
    have hbelow := (lengthOf s).toInt_lt
    have hmax : Int32.maxValue.toInt = 0x7fffffff := rfl
    rw [hmax] at hlast
    omega
  have hsmall : Text.unitCount s < 0x80000000 := by
    by_contra hlarge
    have hneg := toInt_lengthOf_neg (s := s) (by omega) (by omega)
    have hfirst := hlt_iff (i := 0) (by decide)
    have hzero : (0 : Int32).toInt = 0 := rfl
    rw [hzero] at hfirst
    omega
  refine ⟨?_, hsmall⟩
  by_contra hne
  have hlength : (Int32.ofInt s.length).toInt = s.length :=
    Int32.toInt_ofInt_of_le (by omega) (by omega)
  have hpast := hlt_iff (i := Int32.ofInt s.length) (by omega)
  rw [hlength, toInt_lengthOf hsmall] at hpast
  omega

private theorem indexedByLength (hfirst : ∀ c ∈ s.toList, Text.FirstPlane c)
    (hsmall : Text.unitCount s < 0x80000000) (hi : 0 ≤ i.toInt) : IndexedByLength h s i := by
  have hlength := toInt_lengthOf hsmall
  have hcount := (Text.unitCount_eq_length_iff s).2 hfirst
  have hiff : i.toInt.toNat < s.length ↔ i.toInt < (lengthOf s).toInt := by omega
  refine ⟨?_, fun hlt => ?_, fun hle => ?_⟩
  · rw [hasOwn_string h s hi, decide_eq_decide.2 hiff]
  · have hbound : i.toInt.toNat < s.toList.length := by
      rw [String.length_toList]
      exact hiff.2 hlt
    refine ⟨String.ofList [s.toList[i.toInt.toNat]], ?_, ?_⟩
    · rw [Text.unitCount_singleton]
      exact Text.unitsOf_of_firstPlane (hfirst _ (List.getElem_mem hbound))
    · rw [getElement_string h s hi, characterAt, List.getElem?_eq_getElem hbound, Option.elim_some]
  · have hbound : s.toList.length ≤ i.toInt.toNat := by
      rw [String.length_toList]
      omega
    rw [getElement_string h s hi, characterAt, List.getElem?_eq_none hbound, Option.elim_none]

/-- The length of a string counts units, and its indices count characters, so they agree on all integers just
if each character is one unit and an integer can hold the length. -/
theorem string_indices_count_characters (h : Heap) (s : String) :
    (∀ i : Int32, 0 ≤ i.toInt →
      hasOwn h (.int32 i) (.string s) = .ok (decide (i.toInt.toNat < s.length)) ∧
        getElement h (.string s) (.int32 i) = .ok (characterAt s i.toInt.toNat)) ∧
      getProperty h (.string s) "length" = .ok (.int32 (lengthOf s)) ∧
      (∀ (σ : Type) (natives : Natives σ) (stub : Stub) (w : World σ),
        Handler.invoke natives .getPropStringLength stub (.unary (.string s)) w =
          some (.ok (.int32 (lengthOf s)), w)) ∧
      ((∀ i : Int32, 0 ≤ i.toInt → IndexedByLength h s i) ↔
        (∀ c ∈ s.toList, Text.FirstPlane c) ∧ Text.unitCount s < 0x80000000) := by
  refine ⟨fun i hi => ⟨hasOwn_string h s hi, getElement_string h s hi⟩, rfl,
    fun σ natives stub w => rfl, fun hall => ?_, ?_⟩
  · obtain ⟨hcount, hsmall⟩ := unitCount_of_indexed hall
    exact ⟨(Text.unitCount_eq_length_iff s).1 hcount, hsmall⟩
  · rintro ⟨hfirst, hsmall⟩ i hi
    exact indexedByLength hfirst hsmall hi

/-- A character of two units is a string of length two with nothing at its second index. -/
theorem index_below_length_without_character :
    ¬ ∀ (s : String) (i : Int32), 0 ≤ i.toInt → IndexedByLength Heap.initial s i := by
  intro hall
  have hlt := ((hall "😀" 1 (by decide)).lt_iff (by decide)).2 (by decide)
  exact absurd hlt (by decide)

end Operation

end InlineCache
