import InlineCache.Proofs.Stub.Sound
import InlineCache.Proofs.Text.ElementKey

namespace InlineCache

namespace Operation

variable {h : Heap} {id : ObjectId} {key : PropertyKey} {n : Nat}

@[simp] theorem hasOwn_string_object (h : Heap) (key : PropertyKey) (id : ObjectId) :
    hasOwn h (.string key) (.object id) = .ok (objectHasOwn h id key) := by
  rw [hasOwn, toPropertyKey_string]
  rfl

theorem ne_length_of_arrayIndex? (hindex : key.arrayIndex? = some n) : key ≠ "length" := by
  rintro rfl
  have hnone : PropertyKey.arrayIndex? "length" = none :=
    Text.arrayIndex?_eq_none_of_mem (c := 'l') (by decide) (by decide) (by decide)
  rw [hnone] at hindex
  cases hindex

section

variable (harray : (h.object id).cls = .array) (hindex : key.arrayIndex? = some n)

include harray hindex

theorem objectProperty_of_element : objectProperty h id key = element h id n := by
  unfold objectProperty
  simp only [if_pos harray, if_neg (ne_length_of_arrayIndex? hindex), hindex]

theorem setObjectProperty_of_element (v : Value) :
    setObjectProperty h id key v = (.ok (), setArrayElement h id n v) := by
  unfold setObjectProperty
  simp only [if_pos harray, if_neg (ne_length_of_arrayIndex? hindex), hindex]

theorem objectHasOwn_of_element : objectHasOwn h id key = decide (n < (h.object id).elements.size) := by
  unfold objectHasOwn
  simp only [if_pos harray, decide_eq_false (ne_length_of_arrayIndex? hindex), Bool.false_or, hindex]

end

theorem objectHasOwn_of_named (hnamed : (h.object id).cls.Named key) :
    objectHasOwn h id key = h.hasOwnNamed id key := by
  unfold objectHasOwn
  split
  · next harray =>
    obtain ⟨hlength, hindex⟩ := hnamed harray
    simp only [decide_eq_false hlength, Bool.false_or, hindex]
  · rfl

/-- A key names an element of an array just if it is a decimal text without leading zeros, or any decimal
digits after a plus sign. Without the sign, different keys name different elements. Every other key but that
of the length is an ordinary one. -/
theorem keys_of_array (harray : (h.object id).cls = .array) :
    (∀ (key : PropertyKey) (n : Nat), key.arrayIndex? = some n ↔ Text.NamesElement key n) ∧
      (∀ (key key' : PropertyKey) (n : Nat), Text.NamesElement key n → Text.NamesElement key' n →
        '+' ∉ key.toList → '+' ∉ key'.toList → key = key') ∧
      (∀ (key : PropertyKey) (n : Nat), Text.NamesElement key n →
        getProperty h (.object id) key = .ok (element h id n) ∧
          (∀ v, setProperty h (.object id) key v = (.ok (), setArrayElement h id n v)) ∧
          hasOwn h (.string key) (.object id) = .ok (decide (n < (h.object id).elements.size))) ∧
      ∀ key : PropertyKey, key ≠ "length" → (∀ n, ¬ Text.NamesElement key n) →
        getProperty h (.object id) key = .ok (namedProperty h id key) ∧
          (∀ v, setProperty h (.object id) key v = (.ok (), setNamedProperty h id key v)) ∧
          hasOwn h (.string key) (.object id) = .ok (h.hasOwnNamed id key) := by
  refine ⟨fun _ _ => Text.arrayIndex?_eq_some_iff, fun _ _ _ hkey => hkey.eq_of_unsigned, ?_, ?_⟩
  · intro key n hnames
    have hindex : key.arrayIndex? = some n := Text.arrayIndex?_eq_some_iff.2 hnames
    refine ⟨congrArg Except.ok (objectProperty_of_element harray hindex),
      setObjectProperty_of_element harray hindex, ?_⟩
    rw [hasOwn_string_object, objectHasOwn_of_element harray hindex]
  · intro key hlength hnames
    have hindex : key.arrayIndex? = none :=
      Option.eq_none_iff_forall_ne_some.2 fun n hsome => hnames n (Text.arrayIndex?_eq_some_iff.1 hsome)
    have hnamed : (h.object id).cls.Named key := fun _ => ⟨hlength, hindex⟩
    refine ⟨congrArg Except.ok (StubFits.objectProperty_of_named hnamed),
      fun _ => setObjectProperty_of_named hnamed, ?_⟩
    rw [hasOwn_string_object, objectHasOwn_of_named hnamed]

/-- A heap with an array of two elements. -/
def twoElements : Heap := (Heap.initial.newArray Heap.arrayGroup #[.null, .boolean true]).2

/-- The second element of the array, by a key with a sign and zeros. -/
theorem signed_key_of_second :
    getProperty twoElements (.object 1) "+001" = .ok (.boolean true) ∧
      hasOwn twoElements (.string "+001") (.object 1) = .ok true := by
  have harray : (twoElements.object 1).cls = .array := rfl
  have hnames : Text.NamesElement "+001" 1 := ⟨by decide, .inr ⟨2, by decide⟩⟩
  obtain ⟨hget, -, hown⟩ := (keys_of_array harray).2.2.1 "+001" 1 hnames
  exact ⟨hget, hown⟩

/-- Not every key of an element is the decimal text of its index. -/
theorem element_key_not_always_plain :
    ¬ ∀ (key : PropertyKey) (n : Nat),
      key.arrayIndex? = some n ↔ n < Text.indexLimit ∧ key = Nat.repr n := by
  intro hall
  have hnames : Text.NamesElement "+5" 5 := ⟨by decide, .inr ⟨0, by decide⟩⟩
  have hplain := ((hall "+5" 5).1 (Text.arrayIndex?_eq_some_iff.2 hnames)).2
  exact absurd hplain (by decide)

end Operation

end InlineCache
