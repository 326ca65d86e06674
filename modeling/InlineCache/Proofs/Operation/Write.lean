import InlineCache.Proofs.Operation.NumberIndex

namespace InlineCache

namespace Object

/-- One element is written, and a gap before it filled. -/
structure ElementWritten (o o' : Object) (n : Nat) (v : Value) : Prop where
  written : o'.elements[n]? = some v
  kept : ∀ j < o.elements.size, j ≠ n → o'.elements[j]? = o.elements[j]?
  gap : ∀ j, o.elements.size ≤ j → j < n → o'.elements[j]? = some .undefined
  size_eq : o'.elements.size = max o.elements.size (n + 1)

/-- The elements are cut off or filled up to a size. -/
structure Resized (o o' : Object) (size : Nat) : Prop where
  kept : ∀ j < o.elements.size, j < size → o'.elements[j]? = o.elements[j]?
  padded : ∀ j, o.elements.size ≤ j → j < size → o'.elements[j]? = some .undefined
  size_eq : o'.elements.size = size

private theorem size_take (elements : Array Value) (size : Nat) :
    (elements.take size).size = min size elements.size := by
  rw [Array.take_eq_extract, Array.size_extract, Nat.sub_zero]

private theorem resized_setElementCount (o : Object) (size : Nat) :
    o.Resized (o.setElementCount size) size where
  kept j hj hsize := by
    have hlt : j < (o.elements.take size).size := by
      rw [size_take]
      omega
    rw [setElementCount, resized, Array.getElem?_append_left hlt, Array.take_eq_extract,
      Array.getElem?_extract, if_pos (by omega), Nat.zero_add]
  padded j hj hsize := by
    have hmin : (o.elements.take size).size = o.elements.size := by
      rw [size_take]
      omega
    rw [setElementCount, resized, Array.getElem?_append_right (by omega), Array.getElem?_replicate, hmin,
      if_pos (by omega)]
  size_eq := by
    rw [setElementCount, resized, Array.size_append, size_take, Array.size_replicate]
    omega

/-- An element is written into an array that reaches it: the one of before, or that filled up. -/
theorem exists_reaching (o : Object) (n : Nat) : ∃ reaching : Array Value,
    (∀ v, (o.setElement n v).elements = reaching.setIfInBounds n v) ∧
      o.Resized { o with elements := reaching } (max o.elements.size (n + 1)) := by
  by_cases hn : n < o.elements.size
  · refine ⟨o.elements, fun v => ?_, fun _ _ _ => rfl, fun j hj hsize => ?_, ?_⟩
    · simp only [setElement, if_pos hn]
    · omega
    · show o.elements.size = max o.elements.size (n + 1)
      omega
  · refine ⟨resized o.elements (n + 1), fun v => ?_, ?_⟩
    · simp only [setElement, if_neg hn]
    · have hmax : max o.elements.size (n + 1) = n + 1 := by omega
      rw [hmax]
      exact o.resized_setElementCount (n + 1)

private theorem elementWritten_setElement (o : Object) (n : Nat) (v : Value) :
    o.ElementWritten (o.setElement n v) n v := by
  obtain ⟨reaching, heq, hkept, hpadded, hsize⟩ := o.exists_reaching n
  dsimp only at hkept hpadded hsize
  refine ⟨?_, fun j hj hne => ?_, fun j hj hlt => ?_, ?_⟩
  · rw [heq, Array.getElem?_setIfInBounds_self_of_lt (by omega)]
  · rw [heq, Array.getElem?_setIfInBounds_ne (Ne.symm hne), hkept j hj (by omega)]
  · rw [heq, Array.getElem?_setIfInBounds_ne (Nat.ne_of_gt hlt), hpadded j hj (by omega)]
  · rw [heq, Array.size_setIfInBounds, hsize]

end Object

namespace Operation

variable {h h' : Heap} {id : ObjectId} {key : PropertyKey} {v : Value} {n : Nat}

/-- The object has a property with a value. -/
structure Holds (h : Heap) (id : ObjectId) (key : PropertyKey) (v : Value) : Prop where
  own : hasOwn h (.string key) (.object id) = .ok true
  value : getProperty h (.object id) key = .ok v

/-- Whether an object takes a value for a key. It may gain the elements of an array at any time. -/
def Takes (h : Heap) (id : ObjectId) (key : PropertyKey) : Prop :=
  hasOwn h (.string key) (.object id) = .ok true ∨ (h.object id).extensible = true ∨
    (h.object id).cls = .array ∧ ∃ n, key.arrayIndex? = some n

/-- What the write of one property of an object leaves as it was. -/
structure Framed (h h' : Heap) (id : ObjectId) (key : PropertyKey) : Prop where
  others : ∀ other, other ≠ id → h'.object other = h.object other
  named : ∀ other ≤ h.objects.size, ∀ k, other ≠ id ∨ k ≠ key → h'.getOwn? other k = h.getOwn? other k
  elements : (h.object id).cls.Named key → (h'.object id).elements = (h.object id).elements
  cls : (h'.object id).cls = (h.object id).cls
  extensible : (h'.object id).extensible = (h.object id).extensible

private theorem object_setObjectProperty (hset : setObjectProperty h id key v = (.ok (), h')) :
    ∃ shape slots elements, h'.object id =
      { h.object id with shape := shape, slots := slots, elements := elements } := by
  have hmodify {f : Object → Object} (hf : ∃ elements, f (h.object id) = { h.object id with elements }) :
      ∃ shape slots elements, (h.modifyObject id f).object id =
        { h.object id with shape := shape, slots := slots, elements := elements } := by
    rcases Heap.object_modifyObject_cases h id f with heq | heq <;> rw [heq]
    · exact ⟨_, _, _, rfl⟩
    · obtain ⟨elements, helements⟩ := hf
      exact ⟨_, _, elements, helements⟩
  rcases setObjectProperty_cases hset with ⟨size, rfl⟩ | ⟨index, rfl⟩ | rfl
  · exact hmodify ⟨_, rfl⟩
  · exact hmodify ⟨_, rfl⟩
  · obtain ⟨slots, shape, heq⟩ := Heap.object_setNamed h id key v
    exact ⟨shape, slots, _, heq⟩

private theorem object_setObjectProperty_of_ne (hset : setObjectProperty h id key v = (.ok (), h'))
    {other : ObjectId} (hne : other ≠ id) : h'.object other = h.object other := by
  rcases setObjectProperty_cases hset with ⟨size, rfl⟩ | ⟨index, rfl⟩ | rfl
  · exact Heap.object_modifyObject_of_ne _ hne
  · exact Heap.object_modifyObject_of_ne _ hne
  · exact Heap.object_setNamed_of_ne hne key v

private theorem framed (hl : h.Laid) (hset : setObjectProperty h id key v = (.ok (), h')) :
    Framed h h' id key where
  others _ hne := object_setObjectProperty_of_ne hset hne
  named other hother k hne := by
    refine (Heap.stepped_setObjectProperty hl hset).getOwn?_eq hl hother ?_
    rintro ⟨rfl, rfl⟩
    exact hne.elim (· rfl) (· rfl)
  elements hnamed := by
    rw [setObjectProperty_of_named hnamed] at hset
    cases hset
    exact Heap.elements_setNamed h id key v id
  cls := by
    obtain ⟨_, _, _, heq⟩ := object_setObjectProperty hset
    rw [heq]
  extensible := by
    obtain ⟨_, _, _, heq⟩ := object_setObjectProperty hset
    rw [heq]

/-- What is not there reads as nothing. -/
theorem objectProperty_of_absent (habsent : objectHasOwn h id key = false) :
    objectProperty h id key = .undefined := by
  unfold objectHasOwn at habsent
  unfold objectProperty
  have hnamed (hnone : h.hasOwnNamed id key = false) : namedProperty h id key = .undefined := by
    rw [← Heap.isSome_getOwn?, Option.isSome_eq_false_iff, Option.isNone_iff_eq_none] at hnone
    rw [namedProperty, hnone, Option.getD_none]
  split at habsent
  · next harray =>
    rw [Bool.or_eq_false_iff, decide_eq_false_iff_not] at habsent
    obtain ⟨hlength, habsent⟩ := habsent
    rw [if_pos harray, if_neg hlength]
    split at habsent
    · next index hindex =>
      rw [decide_eq_false_iff_not, Nat.not_lt] at habsent
      simp only [element, Array.getElem?_eq_none habsent, Option.getD_none]
    · simp only [hnamed habsent]
  · next harray =>
    rw [if_neg harray, hnamed habsent]

private theorem holds_of_element (harray : (h.object id).cls = .array)
    (hindex : key.arrayIndex? = some n)
    (hwritten : (h.object id).elements[n]? = some v) : Holds h id key v := by
  refine ⟨?_, ?_⟩
  · obtain ⟨hlt, -⟩ := Array.getElem?_eq_some_iff.1 hwritten
    rw [hasOwn_string_object, objectHasOwn_of_element harray hindex, decide_eq_true hlt]
  · refine congrArg Except.ok ?_
    rw [objectProperty_of_element harray hindex, element, hwritten, Option.getD_some]

private theorem holds_of_named (hnamed : (h.object id).cls.Named key)
    (hget : h.getOwn? id key = some v) : Holds h id key v := by
  refine ⟨?_, ?_⟩
  · have hown : h.hasOwnNamed id key = true := by
      rw [← Heap.isSome_getOwn?, hget, Option.isSome_some]
    rw [hasOwn_string_object, objectHasOwn_of_named hnamed, hown]
  · refine congrArg Except.ok ?_
    rw [StubFits.objectProperty_of_named hnamed, namedProperty, hget, Option.getD_some]

private theorem takes_iff_of_named (hnamed : (h.object id).cls.Named key) :
    Takes h id key ↔ h.hasOwnNamed id key = true ∨ (h.object id).extensible = true := by
  rw [Takes, hasOwn_string_object, objectHasOwn_of_named hnamed, Except.ok.injEq]
  refine or_congr_right ⟨?_, .inl⟩
  rintro (hextensible | ⟨harray, n, hindex⟩)
  · exact hextensible
  · rw [(hnamed harray).2] at hindex
    cases hindex

/-- The number of elements of an array is read as its length, exactly where an integer can hold it. -/
def GivesLength (h : Heap) (id : ObjectId) (size : Nat) : Prop :=
  getProperty h (.object id) "length" = .ok (.int32 (Int32.ofInt size)) ∧
    (size < 0x80000000 → (Int32.ofInt size).toInt = size)

private theorem givesLength (harray : (h.object id).cls = .array) {size : Nat}
    (hsize : (h.object id).elements.size = size) : GivesLength h id size := by
  refine ⟨congrArg Except.ok ?_, fun hlt => Int32.toInt_ofInt_of_le (by omega) (by omega)⟩
  rw [objectProperty, if_pos harray, if_pos rfl, hsize]

section

variable (hpos : 0 < id) (hle : id ≤ h.objects.size)

include hpos hle

private theorem elementWritten (harray : (h.object id).cls = .array) (n : Nat) (v : Value) :
    (h.object id).ElementWritten ((setArrayElement h id n v).object id) n v ∧
      ((setArrayElement h id n v).object id).cls = .array := by
  rw [setArrayElement, Heap.object_modifyObject_self hpos hle]
  exact ⟨Object.elementWritten_setElement _ n v, harray⟩

/-- Of an array, the length is written by changing the number of elements. -/
theorem setObjectProperty_length (harray : (h.object id).cls = .array) {size : Nat}
    (hlength : arrayLength v = .ok size) : ∃ h', setObjectProperty h id "length" v = (.ok (), h') ∧
      (h.object id).Resized (h'.object id) size ∧ GivesLength h' id size := by
  refine ⟨h.modifyObject id (·.setElementCount size), ?_, ?_⟩
  · rw [setObjectProperty, if_pos harray, if_pos rfl, hlength]
    rfl
  · have hobject : (h.modifyObject id (·.setElementCount size)).object id =
        (h.object id).setElementCount size := Heap.object_modifyObject_self hpos hle _
    have hresized := (h.object id).resized_setElementCount size
    rw [← hobject] at hresized
    refine ⟨hresized, givesLength ?_ hresized.size_eq⟩
    rw [hobject]
    exact harray

private theorem setObjectProperty_element (harray : (h.object id).cls = .array)
    (hindex : key.arrayIndex? = some n)
    (v : Value) : ∃ h', setObjectProperty h id key v = (.ok (), h') ∧ Holds h' id key v ∧
      (h.object id).ElementWritten (h'.object id) n v ∧
        GivesLength h' id (max (h.object id).elements.size (n + 1)) := by
  obtain ⟨hwritten, harray'⟩ := elementWritten hpos hle harray n v
  exact ⟨_, setObjectProperty_of_element harray hindex v, holds_of_element harray' hindex hwritten.written,
    hwritten, givesLength harray' hwritten.size_eq⟩

/-- A value is stored where the object takes it, and dropped elsewhere. -/
theorem setObjectProperty_stores (hl : h.Laid) (hlength : (h.object id).cls = .array → key ≠ "length")
    (v : Value) : ∃ h', setObjectProperty h id key v = (.ok (), h') ∧
      (Takes h id key → Holds h' id key v) ∧ (¬ Takes h id key → h' = h) := by
  by_cases hnamed : (h.object id).cls.Named key
  · refine ⟨_, setObjectProperty_of_named hnamed, fun htakes => ?_, fun hdropped => ?_⟩
    · have hcls : ((setNamedProperty h id key v).object id).cls = (h.object id).cls := by
        obtain ⟨_, _, heq⟩ := Heap.object_setNamed h id key v
        rw [setNamedProperty, heq]
      refine holds_of_named (hcls ▸ hnamed) ?_
      exact Heap.getOwn?_setNamed_self hl hpos hle ((takes_iff_of_named hnamed).1 htakes) v
    · rw [takes_iff_of_named hnamed, not_or, Bool.not_eq_true, Bool.not_eq_true] at hdropped
      exact Heap.setNamed_of_closed hdropped.1 hdropped.2 v
  · have harray := array_of_not_named hnamed
    cases hindex : key.arrayIndex? with
    | none => exact absurd (fun _ => ⟨hlength harray, hindex⟩) hnamed
    | some n =>
      obtain ⟨h', hset, hholds, -⟩ := setObjectProperty_element hpos hle harray hindex v
      exact ⟨h', hset, fun _ => hholds, fun hdropped => absurd (.inr (.inr ⟨harray, n, hindex⟩)) hdropped⟩

end

/-- What all reads and writes of an object are to each other. -/
structure WriteLaws (h : Heap) (id : ObjectId) : Prop where
  stores : ∀ key v, ((h.object id).cls = .array → key ≠ "length") →
    ∃ h', setProperty h (.object id) key v = (.ok (), h') ∧
      (Takes h id key → Holds h' id key v) ∧ (¬ Takes h id key → h' = h)
  element : ∀ key v n, (h.object id).cls = .array → key.arrayIndex? = some n →
    ∃ h', setProperty h (.object id) key v = (.ok (), h') ∧
      (h.object id).ElementWritten (h'.object id) n v ∧
        GivesLength h' id (max (h.object id).elements.size (n + 1))
  length : ∀ v, (h.object id).cls = .array →
    (∀ e, arrayLength v = .error e → setProperty h (.object id) "length" v = (.error e, h)) ∧
      ∀ size, arrayLength v = .ok size → ∃ h', setProperty h (.object id) "length" v = (.ok (), h') ∧
        (h.object id).Resized (h'.object id) size ∧ GivesLength h' id size
  frame : ∀ key v h', setProperty h (.object id) key v = (.ok (), h') → Framed h h' id key
  absent : ∀ key, hasOwn h (.string key) (.object id) = .ok false →
    getProperty h (.object id) key = .ok .undefined
  /-- An index stands for the key that it is turned into. -/
  index : ∀ index key, toPropertyKey h index = .ok key →
    (∀ v, setElement h (.object id) index v = setProperty h (.object id) key v) ∧
      getElement h (.object id) index = getProperty h (.object id) key ∧
      hasOwn h index (.object id) = hasOwn h (.string key) (.object id)
  noKey : ∀ index e, toPropertyKey h index = .error e →
    ∀ v, setElement h (.object id) index v = (.error e, h)

private theorem writeLaws (hl : h.Laid) (hpos : 0 < id) (hle : id ≤ h.objects.size) :
    WriteLaws h id where
  stores key v hlength := setObjectProperty_stores hpos hle hl hlength v
  element key v n harray hindex := by
    obtain ⟨h', hset, -, hwritten⟩ := setObjectProperty_element hpos hle harray hindex v
    exact ⟨h', hset, hwritten⟩
  length v harray := by
    refine ⟨fun e hlength => ?_, fun size hlength => setObjectProperty_length hpos hle harray hlength⟩
    rw [setProperty, setObjectProperty, if_pos harray, if_pos rfl, hlength]
    rfl
  frame key v h' hset := framed hl hset
  absent key habsent := by
    rw [hasOwn_string_object, Except.ok.injEq] at habsent
    exact congrArg Except.ok (objectProperty_of_absent habsent)
  index index key hkey := by
    refine ⟨fun v => ?_, ?_, ?_⟩
    · rw [setElement_eq, hkey]
      rfl
    · rw [getElement_eq, hkey]
      rfl
    · rw [hasOwn_object, hkey, hasOwn_string_object]
      rfl
  noKey index e hkey v := by
    rw [setElement_eq, hkey]
    rfl

end Operation

private theorem World.commit_of_error {σ : Type} {w : World σ} {result : Except VmError (Value × Heap)}
    {e : VmError} (herror : (w.commit result).1 = .error e) : (w.commit result).2 = w := by
  cases result with
  | error _ => rfl
  | ok _ => cases herror

namespace Operation

/-- A write to an object of a heap stores the value if the object takes it, and otherwise leaves the heap as
it was; it changes no other property and no other object. A write that fails leaves the whole world as it
was, whatever it was to. -/
theorem writes_store_or_leave {actions : List HeapAction} (hobeys : Heap.initial.Obeys actions) :
    (∀ id, 0 < id → id ≤ (Heap.initial.run actions).objects.size →
      WriteLaws (Heap.initial.run actions) id) ∧
    ∀ (σ : Type) (natives : Natives σ) (w : World σ) (target index v : Value) (key : PropertyKey)
      (e : VmError),
      (((Request.setProp target key v).perform natives w).1 = .error e →
        ((Request.setProp target key v).perform natives w).2 = w) ∧
      (((Request.setElem target index v).perform natives w).1 = .error e →
        ((Request.setElem target index v).perform natives w).2 = w) := by
  have hl := Heap.initial_laid.run hobeys
  refine ⟨fun id hpos hle => writeLaws hl hpos hle, fun σ natives w target index v key e => ⟨?_, ?_⟩⟩
  · rw [Request.perform_of_outcome (r := .setProp target key v) natives rfl]
    exact World.commit_of_error
  · rw [Request.perform_of_outcome (r := .setElem target index v) natives rfl]
    exact World.commit_of_error

/-- An array that may gain no properties, with one element and one name. -/
def closedArray : List HeapAction :=
  [.create .array Heap.arrayGroup false Heap.rootShape #[.null] none, .setNamed 1 "x" (.int32 1),
    .preventExtensions 1]

/-- The array gains an element past a gap, and no name. -/
theorem closed_array_gains_element :
    (∃ h', setProperty (Heap.initial.run closedArray) (.object 1) "3" (.boolean true) = (.ok (), h') ∧
      (h'.object 1).elements[2]? = some .undefined ∧ (h'.object 1).elements[3]? = some (.boolean true)) ∧
    setProperty (Heap.initial.run closedArray) (.object 1) "y" .null =
      (.ok (), Heap.initial.run closedArray) := by
  have hobeys : Heap.initial.Obeys closedArray :=
    ⟨⟨by decide, by decide, by decide, rfl⟩, trivial, trivial, trivial⟩
  have hlaws := (writes_store_or_leave hobeys).1 1 (by decide) (by decide)
  have hindex : PropertyKey.arrayIndex? "3" = some 3 := by decide
  refine ⟨?_, ?_⟩
  · obtain ⟨h', hset, hwritten, -⟩ := hlaws.element "3" (.boolean true) 3 rfl hindex
    exact ⟨h', hset, hwritten.gap 2 (by decide) (by decide), hwritten.written⟩
  · obtain ⟨h', hset, -, hdropped⟩ := hlaws.stores "y" .null fun _ => by decide
    have hrefused : ¬ Takes (Heap.initial.run closedArray) 1 "y" := by
      rintro (hown | hextensible | ⟨-, n, hnone⟩)
      · rw [hasOwn_string_object] at hown
        exact absurd (Except.ok.inj hown) (by decide)
      · exact absurd hextensible (by decide)
      · have habsent : PropertyKey.arrayIndex? "y" = none := by decide
        rw [habsent] at hnone
        cases hnone
    rw [hset, hdropped hrefused]

end Operation

end InlineCache
