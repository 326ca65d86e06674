import InlineCache.Proofs.Heap.Working
import InlineCache.Proofs.Types.Widens

namespace InlineCache

namespace Group

/-- Adding to the set of all types changes nothing. -/
theorem addValue_unknown (keyOf : ObjectId → ObjectKey) (v : Value) :
    TypeSet.unknown.addValue keyOf v = .unknown := by
  cases v with
  | magic kind => cases kind <;> rfl
  | _ => rfl

/-- Where all types may occur, none is recorded any more. -/
theorem propertyTypes_widenProperty_self (g : Group) (key : PropertyKey) {f : TypeSet → TypeSet}
    (hf : f .unknown = .unknown) : (g.widenProperty key f).propertyTypes key = f (g.propertyTypes key) := by
  by_cases hunknown : g.unknownProperties = true
  · simp [widenProperty, propertyTypes, hunknown, hf]
  · simp [widenProperty, propertyTypes, hunknown]

theorem propertyTypes_widenProperty_of_ne (g : Group) {key other : PropertyKey} (f : TypeSet → TypeSet)
    (hne : other ≠ key) : (g.widenProperty key f).propertyTypes other = g.propertyTypes other := by
  by_cases hunknown : g.unknownProperties = true
  · simp [widenProperty, hunknown]
  · simp [widenProperty, propertyTypes, hunknown, Assoc.find?_set_of_ne _ _ hne]

/-- A group whose recorded types have widened, with the layout of another. -/
structure Records (g g' : Group) : Prop where
  fields : g'.fields = g.fields
  types : ∀ key, (g.propertyTypes key).Widens (g'.propertyTypes key)

theorem Records.refl (g : Group) : g.Records g := ⟨rfl, fun _ => .refl _⟩

theorem Records.trans {g g' g'' : Group} (h : g.Records g') (h' : g'.Records g'') : g.Records g'' :=
  ⟨h'.fields.trans h.fields, fun key => (h.types key).trans (h'.types key)⟩

theorem records_widenProperty (g : Group) (key : PropertyKey) {f : TypeSet → TypeSet}
    (hf : f .unknown = .unknown) (hwidens : ∀ s : TypeSet, s.Widens (f s)) :
    g.Records (g.widenProperty key f) where
  fields := by
    unfold widenProperty
    split <;> rfl
  types := by
    intro other
    by_cases hother : other = key
    · rw [hother, propertyTypes_widenProperty_self g key hf]
      exact hwidens _
    · rw [propertyTypes_widenProperty_of_ne g f hother]
      exact .refl _

private theorem records_markUnknownProperties (g : Group) : g.Records g.markUnknownProperties :=
  ⟨rfl, fun _ => TypeSet.widens_of_isUnknown rfl⟩

end Group

namespace Heap

/-- A later heap has recorded all that the earlier one has. -/
structure Records (h h' : Heap) : Prop where
  objects_le : h.objects.size ≤ h'.objects.size
  groups_le : h.groups.size ≤ h'.groups.size
  singleton : ∀ id ≤ h.objects.size, (h'.object id).singleton = (h.object id).singleton
  group : ∀ id ≤ h.groups.size, (h.group id).Records (h'.group id)

variable {classed : Prop} {h h' h'' : Heap}

theorem Records.refl (h : Heap) : h.Records h :=
  ⟨Nat.le_refl _, Nat.le_refl _, fun _ _ => rfl, fun _ _ => .refl _⟩

theorem Records.trans (hr : h.Records h') (hr' : h'.Records h'') : h.Records h'' where
  objects_le := Nat.le_trans hr.objects_le hr'.objects_le
  groups_le := Nat.le_trans hr.groups_le hr'.groups_le
  singleton id hid :=
    (hr'.singleton id (Nat.le_trans hid hr.objects_le)).trans (hr.singleton id hid)
  group id hid := (hr.group id hid).trans (hr'.group id (Nat.le_trans hid hr.groups_le))

/-- An object that is tracked by its identity is there, and stays so tracked. -/
theorem Records.singleton_of (hr : h.Records h') {id : ObjectId}
    (hs : (h.object id).singleton = true) : (h'.object id).singleton = true := by
  have hthere : 0 < id ∧ id ≤ h.objects.size := there_of_ne_default fun heq => by
    rw [heq] at hs
    cases hs
  rw [hr.singleton id hthere.2, hs]

/-- What leaves the objects alone and does no more than widen the types of groups. -/
theorem records_modifyGroup (h : Heap) (id : GroupId) {f : Group → Group}
    (hf : ∀ g : Group, g.Records (f g)) : h.Records (h.modifyGroup id f) :=
  { Records.refl h with
    groups_le := Nat.le_of_eq (Table.size_modify _ _ _).symm
    group := fun other _ => by
      rcases h.groups.get_modify_cases id f other with heq | heq <;>
        rw [group, group, modifyGroup, heq]
      · exact .refl _
      · exact hf _ }

theorem records_addPropertyType (h : Heap) (group : GroupId) (key : PropertyKey) (v : Value) :
    h.Records (h.addPropertyType group key v) :=
  records_modifyGroup h group fun g => g.records_widenProperty key (Group.addValue_unknown _ v)
    fun s => s.widens_addValue _ v

theorem records_modifyObject (h : Heap) (id : ObjectId) {f : Object → Object}
    (hf : ∀ o, (f o).singleton = o.singleton) : h.Records (h.modifyObject id f) :=
  { Records.refl h with
    objects_le := Nat.le_of_eq (Table.size_modify _ _ _).symm
    singleton := fun other _ => by
      rcases h.objects.get_modify_cases id f other with heq | heq <;>
        rw [object, object, modifyObject, heq]
      exact hf _ }

private theorem records_addObject (h : Heap) (o : Object) : h.Records (h.addObject o).2 :=
  { Records.refl h with
    objects_le := by simp [addObject]
    singleton := fun id hid => by rw [object, object, addObject, Table.get_add_of_le _ _ hid] }

private theorem records_addGroup (h : Heap) (g : Group) : h.Records (h.addGroup g).2 :=
  { Records.refl h with
    groups_le := by simp [addGroup]
    group := fun id hid => by
      rw [group, group, addGroup, Table.get_add_of_le _ _ hid]
      exact .refl _ }

/-- Shapes are no matter of what is recorded. -/
theorem records_of_shapes (hobjects : h'.objects = h.objects) (hgroups : h'.groups = h.groups) :
    h.Records h' where
  objects_le := Nat.le_of_eq (by rw [hobjects])
  groups_le := Nat.le_of_eq (by rw [hgroups])
  singleton id _ := by rw [object, object, hobjects]
  group id _ := by rw [group, group, hgroups]; exact .refl _

private theorem records_transition (h : Heap) (id : ShapeId) (key : PropertyKey) :
    h.Records (h.transition id key).2 := by
  unfold transition
  split <;> exact records_of_shapes rfl rfl

theorem records_setNamed (h : Heap) (id : ObjectId) (key : PropertyKey) (v : Value) :
    h.Records (h.setNamed id key v).2 := by
  unfold setNamed
  split
  · exact records_modifyObject h id fun _ => rfl
  · split
    · exact (records_transition h _ key).trans (records_modifyObject _ id fun _ => rfl)
    · exact .refl h

private theorem records_addSlot (h : Heap) (id : ObjectId) (old next : ShapeId) (v : Value) :
    h.Records (h.addSlot id old next v).2 := by
  unfold addSlot
  split
  · exact records_modifyObject h id fun _ => rfl
  · exact .refl h

private theorem records_newArrayIterator (h : Heap) (target : ObjectId) :
    h.Records (h.newArrayIterator target).2 :=
  ((records_addObject h _).trans (records_setNamed _ _ _ _)).trans (records_setNamed _ _ _ _)

/-- Whatever the heap does, it forgets nothing that was recorded. -/
theorem Working.records (hworking : Working classed h h') : h.Records h' := by
  cases hworking with
  | addRoot => exact records_of_shapes rfl rfl
  | transition id key _ _ => exact records_transition h id key
  | addGroup g => exact records_addGroup h g
  | finishPreliminary group => exact records_modifyGroup h group fun _ => ⟨rfl, fun _ => .refl _⟩
  | markUnknownProperties group => exact records_modifyGroup h group Group.records_markUnknownProperties
  | addPropertyType group key v => exact records_addPropertyType h group key v
  | newObject _ _ => exact records_addObject h _
  | newSingleton _ _ => exact records_addObject h _
  | newArray _ _ _ => exact records_addObject h _
  | newFunction _ _ _ => exact records_addObject h _
  | newArrayIterator target => exact records_newArrayIterator h target
  | setNamed id key v => exact records_setNamed h id key v
  | addSlot id old v _ _ => exact records_addSlot h id old _ v
  | setSlot id offset v => exact records_modifyObject h id fun _ => rfl
  | setElement id index v => exact records_modifyObject h id fun _ => rfl
  | setElementCount id size => exact records_modifyObject h id fun _ => rfl
  | preventExtensions id => exact records_modifyObject h id fun _ => rfl

theorem group_modifyGroup_self (h : Heap) {id : GroupId} (f : Group → Group) (hpos : 0 < id)
    (hle : id ≤ h.groups.size) : (h.modifyGroup id f).group id = f (h.group id) :=
  Table.get_modify_self _ f hpos hle

theorem propertyTypes_addPropertyType (h : Heap) {group : GroupId} (key : PropertyKey) (v : Value)
    (hpos : 0 < group) (hle : group ≤ h.groups.size) :
    ((h.addPropertyType group key v).group group).propertyTypes key =
      ((h.group group).propertyTypes key).addValue h.objectKey v := by
  rw [addPropertyType, group_modifyGroup_self h _ hpos hle]
  exact Group.propertyTypes_widenProperty_self _ key (Group.addValue_unknown _ v)

end Heap

end InlineCache
