import InlineCache.Types.TypeSet

namespace InlineCache.TypeSet

/-- Whether the set covers the values of a primitive type. -/
def hasType (s : TypeSet) (t : ValueType) : Bool := s.isUnknown || s.primitives.contains t

/-- Whether the set covers all values of a type. A sentinel has no type of its own. -/
def coversType (s : TypeSet) : ValueType → Bool
  | .object => s.isUnknownObject
  | .magic => true
  | t => s.hasType t

/-- The second set covers all that the first one covers, however objects are told apart. Past its limit
a set forgets the keys of its objects, but then it covers every object. -/
structure Widens (s s' : TypeSet) : Prop where
  unknown : s.isUnknown = true → s'.isUnknown = true
  unknownObject : s.isUnknownObject = true → s'.isUnknownObject = true
  object : ∀ key, s.hasObject key = true → s'.hasObject key = true
  type : ∀ t, s.hasType t = true → s'.hasType t = true

variable {s s' s'' : TypeSet} {keyOf : ObjectId → ObjectKey} {v : Value}

theorem Widens.refl (s : TypeSet) : s.Widens s := ⟨id, id, fun _ h => h, fun _ h => h⟩

theorem Widens.trans (h : s.Widens s') (h' : s'.Widens s'') : s.Widens s'' :=
  ⟨fun hs => h'.unknown (h.unknown hs), fun hs => h'.unknownObject (h.unknownObject hs),
    fun key hs => h'.object key (h.object key hs), fun t hs => h'.type t (h.type t hs)⟩

theorem Widens.hasValue (h : s.Widens s') (hv : s.hasValue keyOf v = true) :
    s'.hasValue keyOf v = true := by
  cases v with
  | object id => exact h.object _ hv
  | magic kind => exact h.unknown hv
  | _ => exact h.type _ hv

theorem Widens.coversType (h : s.Widens s') {t : ValueType} (ht : s.coversType t = true) :
    s'.coversType t = true := by
  cases t with
  | object => exact h.unknownObject ht
  | magic => rfl
  | _ => exact h.type _ ht

/-- The set of every value covers whatever a set may cover. -/
theorem widens_of_isUnknown (h : s'.isUnknown = true) : s.Widens s' := by
  have hanything : s'.anything = true := h
  refine ⟨fun _ => h, fun _ => ?_, fun _ _ => ?_, fun _ _ => ?_⟩
  · simp [isUnknownObject, hanything]
  · simp [hasObject, hanything]
  · simp [hasType, h]

theorem hasValue_of_isUnknown (h : s.isUnknown = true) : s.hasValue keyOf v = true := by
  have hanything : s.anything = true := h
  cases v <;> simp [hasValue, hasObject, hanything]

theorem hasObject_of_isUnknownObject (h : s.isUnknownObject = true) (key : ObjectKey) :
    s.hasObject key = true := by
  simp only [isUnknownObject] at h
  rw [hasObject, h, Bool.true_or]

theorem isUnknownObject_markUnknownObject (s : TypeSet) : s.markUnknownObject.isUnknownObject = true := by
  unfold markUnknownObject
  split
  · next h => exact h
  · simp [isUnknownObject]

theorem isUnknown_markUnknown (s : TypeSet) : s.markUnknown.isUnknown = true := by
  unfold markUnknown
  split
  · next h => exact h
  · rfl

private theorem hasType_addType (s : TypeSet) (t : ValueType) : (s.addType t).hasType t = true := by
  unfold addType hasType isUnknown
  split
  · next h => simp [h]
  · simp

private theorem hasObject_addObject (s : TypeSet) (key : ObjectKey) :
    (s.addObject key).hasObject key = true := by
  unfold addObject
  split
  · next h => exact h
  · split
    · exact hasObject_of_isUnknownObject (isUnknownObject_markUnknownObject s) key
    · simp [hasObject]

/-- A value is covered once it was added, unless it was optimized out. -/
theorem hasValue_addValue (hv : v ≠ .magic .optimizedOut) :
    (s.addValue keyOf v).hasValue keyOf v = true := by
  cases v with
  | object id => exact hasObject_addObject s (keyOf id)
  | magic kind =>
    cases kind with
    | uninitializedLexical => exact isUnknown_markUnknown s
    | optimizedOut => exact absurd rfl hv
  | _ => exact hasType_addType s _

theorem widens_markUnknownObject (s : TypeSet) : s.Widens s.markUnknownObject := by
  unfold markUnknownObject
  split
  · exact .refl s
  · exact ⟨id, fun _ => by simp [isUnknownObject], fun _ _ => by simp [hasObject], fun _ h => h⟩

theorem widens_markUnknown (s : TypeSet) : s.Widens s.markUnknown :=
  widens_of_isUnknown (isUnknown_markUnknown s)

theorem widens_addType (s : TypeSet) (t : ValueType) : s.Widens (s.addType t) := by
  unfold addType
  split
  · exact .refl s
  · refine ⟨id, id, fun _ h => h, fun u h => ?_⟩
    simp only [hasType, isUnknown, Bool.or_eq_true] at h ⊢
    exact h.imp_right fun h => by simp [h]

theorem widens_addObject (s : TypeSet) (key : ObjectKey) : s.Widens (s.addObject key) := by
  unfold addObject
  split
  · exact .refl s
  · split
    · exact widens_markUnknownObject s
    · refine ⟨id, id, fun other h => ?_, fun _ h => h⟩
      simp only [hasObject, Bool.or_eq_true, List.contains_eq_mem, decide_eq_true_eq] at h ⊢
      exact h.imp_right fun h => List.mem_append_left _ h

theorem widens_addValue (s : TypeSet) (keyOf : ObjectId → ObjectKey) (v : Value) :
    s.Widens (s.addValue keyOf v) := by
  cases v with
  | object id => exact widens_addObject s _
  | magic kind =>
    cases kind with
    | uninitializedLexical => exact widens_markUnknown s
    | optimizedOut => exact .refl s
  | _ => exact widens_addType s _

end InlineCache.TypeSet
