import InlineCache.Proofs.Heap.Built
import InlineCache.Proofs.Heap.Records

namespace InlineCache

namespace Object

/-- An object that stays as it is as far as a ban goes: a ban is not lifted, and where there is one the shape
stays. -/
def KeepsBan (o o' : Object) : Prop :=
  o.extensible = false → o'.extensible = false ∧ o'.shape = o.shape

theorem KeepsBan.refl (o : Object) : o.KeepsBan o := fun h => ⟨h, rfl⟩

theorem KeepsBan.trans {o o' o'' : Object} (h : o.KeepsBan o') (h' : o'.KeepsBan o'') : o.KeepsBan o'' := by
  intro hbanned
  obtain ⟨hbanned', hshape⟩ := h hbanned
  obtain ⟨hbanned'', hshape'⟩ := h' hbanned'
  exact ⟨hbanned'', hshape'.trans hshape⟩

end Object

namespace Heap

/-- The objects of a heap are still banned in another, those that were. -/
def KeepsBans (h h' : Heap) : Prop := ∀ id ≤ h.objects.size, (h.object id).KeepsBan (h'.object id)

variable {h h' h'' : Heap}

theorem KeepsBans.refl (h : Heap) : h.KeepsBans h := fun _ _ => .refl _

theorem KeepsBans.trans (hk : h.KeepsBans h') (hle : h.objects.size ≤ h'.objects.size)
    (hk' : h'.KeepsBans h'') : h.KeepsBans h'' :=
  fun id hid => (hk id hid).trans (hk' id (Nat.le_trans hid hle))

private theorem keepsBans_of_objects (hobjects : h'.objects = h.objects) : h.KeepsBans h' :=
    fun id _ => by
  rw [object, object, hobjects]
  exact .refl _

private theorem keepsBans_modifyObject {target : ObjectId} {f : Object → Object}
    (hf : (h.object target).KeepsBan (f (h.object target))) : h.KeepsBans (h.modifyObject target f) := by
  intro id _
  by_cases hid : id = target
  · subst hid
    rcases h.objects.get_modify_cases id f id with heq | heq <;> rw [object, object, modifyObject, heq]
    · exact .refl _
    · exact hf
  · rw [object, object, modifyObject, Table.get_modify_of_ne _ f hid]
    exact .refl _

private theorem keepsBans_addObject (h : Heap) (o : Object) : h.KeepsBans (h.addObject o).2 :=
    fun id hid => by
  rw [object, object, addObject, Table.get_add_of_le _ _ hid]
  exact .refl _

/-- The write of a named property adds none to an object that is banned. -/
theorem keepsBans_setNamed (h : Heap) (target : ObjectId) (key : PropertyKey) (v : Value) :
    h.KeepsBans (h.setNamed target key v).2 := by
  unfold setNamed
  split
  · exact keepsBans_modifyObject fun hbanned => ⟨hbanned, rfl⟩
  · split
    · next hextensible =>
      have hobjects := objects_transition h (h.object target).shape key
      refine (keepsBans_of_objects hobjects).trans (Nat.le_of_eq (by rw [hobjects])) ?_
      refine keepsBans_modifyObject fun hbanned => ?_
      rw [object, hobjects, ← object, hextensible] at hbanned
      cases hbanned
    · exact .refl h

private theorem keepsBans_addSlot (h : Heap) (target : ObjectId) (old next : ShapeId) (v : Value) :
    h.KeepsBans (h.addSlot target old next v).2 := by
  unfold addSlot
  split
  · next hboth =>
    refine keepsBans_modifyObject fun hbanned => ?_
    rw [hboth.2] at hbanned
    cases hbanned
  · exact .refl h

private theorem keepsBans_newArrayIterator (h : Heap) (target : ObjectId) :
    h.KeepsBans (h.newArrayIterator target).2 := by
  have hle (h : Heap) (id : ObjectId) (key : PropertyKey) (v : Value) :
      h.objects.size ≤ (h.setNamed id key v).2.objects.size := (records_setNamed h id key v).objects_le
  exact (keepsBans_addObject h _).trans (by simp [addObject])
    ((keepsBans_setNamed _ _ _ _).trans (hle _ _ _ _) (keepsBans_setNamed _ _ _ _))

/-- No working of a heap lifts a ban, or adds a named property to an object that is banned. -/
theorem Working.keepsBans {classed : Prop} (hworking : Working classed h h') : h.KeepsBans h' := by
  cases hworking with
  | addRoot | addGroup _ | finishPreliminary _ | markUnknownProperties _ | addPropertyType _ _ _ =>
    exact keepsBans_of_objects rfl
  | transition id key _ _ => exact keepsBans_of_objects (objects_transition h id key)
  | newObject _ _ | newSingleton _ _ | newArray _ _ _ | newFunction _ _ _ => exact keepsBans_addObject h _
  | newArrayIterator target => exact keepsBans_newArrayIterator h target
  | setNamed target key v => exact keepsBans_setNamed h target key v
  | addSlot target old v _ _ => exact keepsBans_addSlot h target old _ v
  | setSlot _ _ _ | setElement _ _ _ | setElementCount _ _ =>
    exact keepsBans_modifyObject fun hbanned => ⟨hbanned, rfl⟩
  | preventExtensions _ => exact keepsBans_modifyObject fun _ => ⟨rfl, rfl⟩

private theorem Built.keepsBans (hb : h.Built h') : h.KeepsBans h' := by
  cases hb with
  | addGroup g _ => exact keepsBans_of_objects rfl
  | working hworking _ => exact hworking.keepsBans
  | enterCall _ | leaveCall _ => exact keepsBans_modifyObject fun hbanned => ⟨hbanned, rfl⟩
  | recorded hseen => exact keepsBans_of_objects (objects_eq_of_seen hseen)

theorem Builds.keepsBans (hb : h.Builds h') (hw : h.WellFormed False) : h.KeepsBans h' := by
  induction hb with
  | refl => exact .refl h
  | tail hbuilds hstep ih =>
    obtain ⟨hgrows, -⟩ := Builds.evolves hbuilds hw
    exact ih.trans hgrows.objects_le hstep.keepsBans

/-- The key of an element that an array of some length has. -/
def IsElementKey (size : Nat) (key : PropertyKey) : Prop :=
  ∃ index, key.arrayIndex? = some index ∧ index < size

instance (size : Nat) (key : PropertyKey) : Decidable (IsElementKey size key) :=
  decidable_of_iff (∃ index ∈ key.arrayIndex?, index < size) Iff.rfl

/-- An array has its length, its elements, and its named properties. -/
theorem objectHasOwn_array_iff {id : ObjectId} {key : PropertyKey} (hcls : (h.object id).cls = .array) :
    Operation.objectHasOwn h id key = true ↔
      key = "length" ∨ IsElementKey (h.object id).elements.size key ∨
        key.arrayIndex? = none ∧ h.hasOwnNamed id key = true := by
  rw [Operation.objectHasOwn, if_pos hcls]
  cases hindex : key.arrayIndex? with
  | none => simp [IsElementKey, hindex]
  | some index => simp [IsElementKey, hindex]

/-- Of an object that may not gain properties, the named ones are those of before. -/
theorem hasOwnNamed_of_banned (hb : h.Builds h') (hw : h.WellFormed False) {id : ObjectId}
    (hid : id ≤ h.objects.size) (hbanned : (h.object id).extensible = false) (key : PropertyKey) :
    h'.hasOwnNamed id key = h.hasOwnNamed id key := by
  obtain ⟨-, hshape⟩ := hb.keepsBans hw id hid hbanned
  obtain ⟨hgrows, -⟩ := hb.evolves hw
  have hoffset := (hgrows.shape _ (hw.object id).shape_le).offsetOf?_eq key
  rw [hasOwnNamed, hasOwnNamed, shapeOf, shapeOf, hshape, hoffset]

/-- What an object that may not gain properties has that it did not have: elements, if it is an array. -/
theorem objectHasOwn_of_banned (hb : h.Builds h') (hw : h.WellFormed False) {id : ObjectId}
    (hid : id ≤ h.objects.size) (hbanned : (h.object id).extensible = false) {key : PropertyKey}
    (hlacks : Operation.objectHasOwn h id key = false) :
    Operation.objectHasOwn h' id key = true ↔
      (h.object id).cls = .array ∧ IsElementKey (h'.object id).elements.size key := by
  have hnamed := hasOwnNamed_of_banned hb hw hid hbanned key
  have hcls : (h'.object id).cls = (h.object id).cls := ((hb.evolves hw).1.object id hid).cls
  by_cases harray : (h.object id).cls = .array
  · have hlacks' : ¬ Operation.objectHasOwn h id key = true := by rw [hlacks]; exact Bool.false_ne_true
    rw [objectHasOwn_array_iff harray] at hlacks'
    rw [objectHasOwn_array_iff (hcls.trans harray), hnamed]
    constructor
    · rintro (hlength | helement | hold)
      · exact absurd (.inl hlength) hlacks'
      · exact ⟨harray, helement⟩
      · exact absurd (.inr (.inr hold)) hlacks'
    · exact fun hboth => .inr (.inl hboth.2)
  · rw [Operation.objectHasOwn_of_not_array harray] at hlacks
    rw [Operation.objectHasOwn_of_not_array (hcls ▸ harray), hnamed, hlacks]
    constructor
    · exact fun h => absurd h Bool.false_ne_true
    · exact fun hboth => absurd hboth.1 harray

end Heap

end InlineCache
