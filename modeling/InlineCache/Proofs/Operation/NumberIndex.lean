import InlineCache.Proofs.Heap.NamedWrite
import InlineCache.Proofs.Number.Text
import InlineCache.Proofs.Operation.ElementKey

namespace InlineCache

namespace Operation

variable {h : Heap} {id : ObjectId} {index : Value} {d : Double}

/-- A number is turned into a key by its text, in either representation. -/
theorem toPropertyKey_of_number (h : Heap) (hnumber : index.asNumber? = some d) :
    toPropertyKey h index = .ok d.scriptText := by
  rcases asNumber?_cases hnumber with ⟨i, rfl, hd⟩ | rfl
  · rw [hd, Value.doubleOfInt32, Double.scriptText_ofInt (Value.natAbs_toInt_le_two_pow i), toPropertyKey,
      toText, textWithin]
  · rw [toPropertyKey, toText, textWithin]

private theorem arrayElement?_of_number (hnumber : index.asNumber? = some d) :
    arrayElement? h (.object id) index =
      if (h.object id).cls = .array then (indexOfNumber? d).map fun n => (id, n) else none := by
  simp only [arrayElement?, hnumber]

/-- An element that is found directly is the one that the key of the index names. -/
theorem arrayElement?_cases (h : Heap) (id : ObjectId) (index : Value) :
    (∃ n key, (h.object id).cls = .array ∧ toPropertyKey h index = .ok key ∧ key.arrayIndex? = some n ∧
      arrayElement? h (.object id) index = some (id, n)) ∨
    arrayElement? h (.object id) index = none := by
  cases hnumber : index.asNumber? with
  | none => exact .inr (by simp only [arrayElement?, hnumber])
  | some d =>
    rw [arrayElement?_of_number hnumber]
    split
    · next harray =>
      cases hindex : indexOfNumber? d with
      | none => exact .inr rfl
      | some n =>
        refine .inl ⟨n, d.scriptText, harray, toPropertyKey_of_number h hnumber, ?_, rfl⟩
        rw [Double.arrayIndex?_scriptText, hindex]
    · exact .inr rfl

/-- The element at an index is the property with the key that the index is turned into. -/
theorem getElement_eq (h : Heap) (id : ObjectId) (index : Value) :
    getElement h (.object id) index =
      (toPropertyKey h index).bind fun key => getProperty h (.object id) key := by
  unfold getElement
  rcases arrayElement?_cases h id index with ⟨n, key, harray, hkey, hindex, hfound⟩ | hnone
  · rw [hfound, hkey]
    exact congrArg Except.ok (objectProperty_of_element harray hindex).symm
  · rw [hnone]
    rfl

theorem setElement_eq (h : Heap) (id : ObjectId) (index v : Value) :
    setElement h (.object id) index v =
      given h (toPropertyKey h index) fun key => setProperty h (.object id) key v := by
  unfold setElement
  rcases arrayElement?_cases h id index with ⟨n, key, harray, hkey, hindex, hfound⟩ | hnone
  · rw [hfound, hkey]
    exact (setObjectProperty_of_element harray hindex v).symm
  · rw [hnone]
    rfl

private theorem hasProperty_object (h : Heap) (id : ObjectId) (index : Value) :
    hasProperty h index (.object id) = (toPropertyKey h index).map fun key => objectHasOwn h id key := by
  unfold hasProperty
  cases toPropertyKey h index <;> rfl

theorem hasOwn_object (h : Heap) (id : ObjectId) (index : Value) :
    hasOwn h index (.object id) = (toPropertyKey h index).map fun key => objectHasOwn h id key := by
  unfold hasOwn
  cases toPropertyKey h index <;> rfl

/-- What is done with an array at the index of an element. -/
structure ReachesElement (h : Heap) (id : ObjectId) (index : Value) (n : Nat) : Prop where
  read : getElement h (.object id) index = .ok (element h id n)
  write : ∀ v, setElement h (.object id) index v = (.ok (), setArrayElement h id n v)
  hasOwn : hasOwn h index (.object id) = .ok (decide (n < (h.object id).elements.size))
  hasProperty : hasProperty h index (.object id) = .ok (decide (n < (h.object id).elements.size))
  /-- The code for the test of an element answers the same. -/
  stub : ∀ (σ : Type) (natives : Natives σ) (stub : Stub) (w : World σ) (i : Int32), w.heap = h →
    index = .int32 i → Handler.invoke natives .hasOwnElement stub (.binary index (.object id)) w =
      some (.ok (.boolean (decide (n < (h.object id).elements.size))), w)

/-- What is done with an array at a number that is the index of no element. -/
structure MissesElements (h : Heap) (id : ObjectId) (index : Value) (key : PropertyKey) : Prop where
  read : getElement h (.object id) index = .ok (namedProperty h id key)
  write : ∀ v, ∃ h', setElement h (.object id) index v = (.ok (), h') ∧
    ∀ other, (h'.object other).elements = (h.object other).elements
  hasOwn : hasOwn h index (.object id) = .ok (h.hasOwnNamed id key)
  hasProperty : hasProperty h index (.object id) = .ok (h.hasOwnNamed id key)

private theorem reachesElement {n : Nat} (harray : (h.object id).cls = .array)
    (hnumber : index.asNumber? = some d) (hfound : indexOfNumber? d = some n) :
    ReachesElement h id index n := by
  have hkey := toPropertyKey_of_number h hnumber
  have hindex : PropertyKey.arrayIndex? d.scriptText = some n := by
    rw [Double.arrayIndex?_scriptText, hfound]
  have hown := objectHasOwn_of_element harray hindex
  refine ⟨?_, fun v => ?_, ?_, ?_, ?_⟩
  · rw [getElement_eq, hkey]
    exact congrArg Except.ok (objectProperty_of_element harray hindex)
  · rw [setElement_eq, hkey]
    exact setObjectProperty_of_element harray hindex v
  · rw [hasOwn_object, hkey, ← hown]
    rfl
  · rw [hasProperty_object, hkey, ← hown]
    rfl
  · rintro σ natives stub w i rfl rfl
    obtain ⟨-, htruncate, -⟩ := indexOfNumber?_eq_some_iff.1 hfound
    have hd : Value.doubleOfInt32 i = d := Option.some.inj hnumber
    rw [← hd, Value.doubleOfInt32, Double.truncate_ofInt (Value.natAbs_toInt_le_two_pow i)] at htruncate
    have hguard : Guard.holds w.heap .hasOwnElement stub (.binary (.int32 i) (.object id)) = true := by
      have hpos : 0 ≤ i.toInt := by omega
      simp only [Guard.holds, Guard.elementKey, Specialize.denseTarget?, harray, hpos, and_self, if_true,
        Option.isSome_some]
    have hiff : 0 ≤ i.toInt ∧ i.toInt < (w.heap.object id).elements.size ↔
        n < (w.heap.object id).elements.size := by omega
    rw [Handler.invoke, if_pos hguard]
    simp only [Handler.run, Handler.hasElement?, Handler.answer, hiff]

private theorem missesElements (hnumber : index.asNumber? = some d) (hnone : indexOfNumber? d = none) :
    MissesElements h id index d.scriptText := by
  have hkey := toPropertyKey_of_number h hnumber
  have hnamed : (h.object id).cls.Named d.scriptText := fun _ =>
    ⟨d.scriptText_ne_length, by rw [Double.arrayIndex?_scriptText, hnone]⟩
  have hown := objectHasOwn_of_named hnamed
  refine ⟨?_, fun v => ⟨setNamedProperty h id d.scriptText v, ?_, ?_⟩, ?_, ?_⟩
  · rw [getElement_eq, hkey]
    exact congrArg Except.ok (StubFits.objectProperty_of_named hnamed)
  · rw [setElement_eq, hkey]
    exact setObjectProperty_of_named hnamed
  · exact Heap.elements_setNamed h id d.scriptText v
  · rw [hasOwn_object, hkey, ← hown]
    rfl
  · rw [hasProperty_object, hkey, ← hown]
    rfl

/-- A number as an index of an object does what the key does that it is turned into. Of an array it is the
index of an element just if it is a whole number, zero of either sign among them, below the limit; a number
of any other kind is the name of a property. -/
theorem number_index_agrees_with_key (h : Heap) (id : ObjectId) (hnumber : index.asNumber? = some d) :
    (∃ key, toPropertyKey h index = .ok key ∧
      getElement h (.object id) index = getProperty h (.object id) key ∧
      ∀ v, setElement h (.object id) index v = setProperty h (.object id) key v) ∧
    ((h.object id).cls = .array → ∀ n : Nat, d.isIntegral = true → d.truncate = n →
      n < Text.indexLimit → ReachesElement h id index n) ∧
    (¬ (d.isIntegral = true ∧ 0 ≤ d.truncate ∧ d.truncate < Text.indexLimit) →
      ∃ key, toPropertyKey h index = .ok key ∧ MissesElements h id index key) := by
  have hkey := toPropertyKey_of_number h hnumber
  refine ⟨⟨d.scriptText, hkey, ?_, fun v => ?_⟩, ?_, fun hrange => ⟨d.scriptText, hkey, ?_⟩⟩
  · rw [getElement_eq, hkey]
    rfl
  · rw [setElement_eq, hkey]
    rfl
  · intro harray n hintegral htruncate hlt
    exact reachesElement harray hnumber (indexOfNumber?_eq_some_iff.2 ⟨hintegral, htruncate, hlt⟩)
  · exact missesElements hnumber (if_neg hrange)

/-- The negative zero is the index of the first element. -/
theorem negative_zero_index_of_first :
    ReachesElement twoElements 1 (.double (Double.ofUnits true 0)) 0 ∧
      getElement twoElements (.object 1) (.double (Double.ofUnits true 0)) = .ok .null := by
  have hnumber : (Value.double (Double.ofUnits true 0)).asNumber? = some (Double.ofUnits true 0) := rfl
  have hagrees := number_index_agrees_with_key twoElements 1 hnumber
  have hreaches := hagrees.2.1 rfl 0 (by decide +kernel) (by decide +kernel) (by decide)
  exact ⟨hreaches, hreaches.read⟩

end Operation

end InlineCache
