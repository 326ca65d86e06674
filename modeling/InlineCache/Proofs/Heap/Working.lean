import InlineCache.Proofs.Heap.Grows
import InlineCache.Proofs.Request.Outcome

namespace InlineCache

namespace Heap

variable {classed : Prop} {h h' : Heap}

/-- A change to an object that leaves it its kind, its shape, and the ban on new properties. -/
theorem evolves_of_keep (id : ObjectId) {f : Object → Object} (hkind : ∀ o : Object, o.SameKind (f o))
    (hshape : ∀ o : Object, (f o).shape = o.shape)
    (hextensible : ∀ o : Object, (f o).extensible = true → o.extensible = true) :
    h.Evolves classed (h.modifyObject id f) :=
  evolves_modifyObject id hkind fun _ o ho =>
    { shape_le := by rw [hshape]; exact ho.shape_le
      shape_pos := fun he => by rw [hshape]; exact ho.shape_pos (hextensible o he)
      group_le := by rw [(hkind o).group]; exact ho.group_le
      cls_eq := fun hc => by rw [(hkind o).cls, (hkind o).group]; exact ho.cls_eq hc }

theorem evolves_setSlot (id : ObjectId) (offset : Nat) (v : Value) :
    h.Evolves classed (h.modifyObject id (·.setSlot offset v)) :=
  evolves_of_keep id (fun _ => ⟨rfl, rfl, rfl⟩) (fun _ => rfl) fun _ he => he

theorem evolves_setElement (id : ObjectId) (index : Nat) (v : Value) :
    h.Evolves classed (h.modifyObject id (·.setElement index v)) :=
  evolves_of_keep id (fun _ => ⟨rfl, rfl, rfl⟩) (fun _ => rfl) fun _ he => he

theorem evolves_setElementCount (id : ObjectId) (size : Nat) :
    h.Evolves classed (h.modifyObject id (·.setElementCount size)) :=
  evolves_of_keep id (fun _ => ⟨rfl, rfl, rfl⟩) (fun _ => rfl) fun _ he => he

theorem evolves_preventExtensions (id : ObjectId) : h.Evolves classed (h.preventExtensions id) :=
  evolves_of_keep id (fun _ => ⟨rfl, rfl, rfl⟩) (fun _ => rfl) fun _ he => by cases he

/-- The object moves to a shape that is there. -/
theorem evolves_appendSlot (id : ObjectId) {next : ShapeId} (v : Value)
    (hnext : h.WellFormed classed → 0 < next ∧ next ≤ h.shapes.size) :
    h.Evolves classed (h.appendSlot id next v) :=
  evolves_modifyObject id (fun _ => ⟨rfl, rfl, rfl⟩) fun hw _ ho =>
    ⟨(hnext hw).2, fun _ => (hnext hw).1, ho.group_le, ho.cls_eq⟩

private theorem evolves_addSlot (id : ObjectId) (old : ShapeId) {next : ShapeId} (v : Value)
    (hnext : h.WellFormed classed → 0 < next ∧ next ≤ h.shapes.size) :
    h.Evolves classed (h.addSlot id old next v).2 := by
  unfold addSlot
  split
  · exact evolves_appendSlot id v hnext
  · exact .refl classed h

/-- The shape that a step leads to is there. -/
theorem transition_le {id : ShapeId} (key : PropertyKey) (hw : h.WellFormed classed) :
    0 < (h.transition id key).1 ∧ (h.transition id key).1 ≤ (h.transition id key).2.shapes.size := by
  cases hfind : (h.shape id).transitions.find? key with
  | some next =>
    rw [transition_of_find? hfind]
    exact hw.transition id key next hfind
  | none =>
    obtain ⟨hnext, hsize⟩ := transition_of_find?_none hfind
    rw [hnext, hsize]
    exact ⟨Nat.succ_pos _, Nat.le_refl _⟩

private theorem evolves_setNamed (id : ObjectId) (key : PropertyKey) (v : Value) :
    h.Evolves classed (h.setNamed id key v).2 := by
  unfold setNamed
  split
  · exact evolves_setSlot id _ v
  · split
    · next hextensible =>
      intro hw
      have ho := hw.object id
      have hstep : h.Evolves classed (h.transition (h.object id).shape key).2 :=
        evolves_transition (ho.shape_pos hextensible) ho.shape_le key
      exact hstep.trans (evolves_appendSlot id v fun _ => transition_le key hw) hw
    · exact .refl classed h

private theorem placed_bareObject {cls : ObjectClass} {group : GroupId} {singleton : Bool}
    (hw : h.WellFormed classed) (hle : group ≤ h.groups.size)
    (hcls : classed → cls = (h.group group).cls) :
    (bareObject cls group singleton).Placed classed h :=
  ⟨hw.root_le, fun _ => Nat.one_pos, hle, hcls⟩

private theorem evolves_newArrayIterator (target : ObjectId) :
    h.Evolves classed (h.newArrayIterator target).2 := by
  have hadd : h.Evolves classed (h.addObject (bareObject .arrayIterator iteratorGroup false)).2 :=
    evolves_addObject fun hw => placed_bareObject hw hw.iteratorGroup_le
      fun _ => hw.iteratorGroup_cls.symm
  exact (hadd.trans (evolves_setNamed _ _ _)).trans (evolves_setNamed _ _ _)

/-- The workings of a heap. With `classed`, an object is made in a group of its class. -/
inductive Working (classed : Prop) (h : Heap) : Heap → Prop where
  | addRoot : Working classed h h.addRoot.2
  | transition (id : ShapeId) (key : PropertyKey) (hpos : 0 < id) (hle : id ≤ h.shapes.size) :
      Working classed h (h.transition id key).2
  | addGroup (g : Group) : Working classed h (h.addGroup g).2
  | finishPreliminary (group : GroupId) :
      Working classed h (h.modifyGroup group Group.finishPreliminary)
  | markUnknownProperties (group : GroupId) :
      Working classed h (h.modifyGroup group Group.markUnknownProperties)
  | addPropertyType (group : GroupId) (key : PropertyKey) (v : Value) :
      Working classed h (h.addPropertyType group key v)
  | newObject {group : GroupId} (hle : group ≤ h.groups.size)
      (hcls : classed → (h.group group).cls = .plain) : Working classed h (h.newObject group).2
  | newSingleton {group : GroupId} (hle : group ≤ h.groups.size)
      (hcls : classed → (h.group group).cls = .plain) : Working classed h (h.newSingleton group).2
  | newArray {group : GroupId} (elements : Array Value) (hle : group ≤ h.groups.size)
      (hcls : classed → (h.group group).cls = .array) :
      Working classed h (h.newArray group elements).2
  | newFunction (name : String) (body : BodyId)
      (hcls : classed → (h.group functionGroup).cls = .function) :
      Working classed h (h.newFunction name body).2
  | newArrayIterator (target : ObjectId) : Working classed h (h.newArrayIterator target).2
  | setNamed (id : ObjectId) (key : PropertyKey) (v : Value) :
      Working classed h (h.setNamed id key v).2
  | addSlot (id : ObjectId) (old : ShapeId) {next : ShapeId} (v : Value) (hpos : 0 < next)
      (hle : next ≤ h.shapes.size) : Working classed h (h.addSlot id old next v).2
  | setSlot (id : ObjectId) (offset : Nat) (v : Value) :
      Working classed h (h.modifyObject id (·.setSlot offset v))
  | setElement (id : ObjectId) (index : Nat) (v : Value) :
      Working classed h (h.modifyObject id (·.setElement index v))
  | setElementCount (id : ObjectId) (size : Nat) :
      Working classed h (h.modifyObject id (·.setElementCount size))
  | preventExtensions (id : ObjectId) : Working classed h (h.preventExtensions id)

/-- Whatever the heap does, it grows and stays well formed. -/
theorem Working.evolves (hworking : Working classed h h') : h.Evolves classed h' := by
  cases hworking with
  | addRoot => exact evolves_addRoot classed h
  | transition id key hpos hle => exact evolves_transition hpos hle key
  | addGroup g => exact evolves_addGroup classed h g
  | finishPreliminary group => exact evolves_modifyGroup classed h group fun _ => rfl
  | markUnknownProperties group => exact evolves_modifyGroup classed h group fun _ => rfl
  | addPropertyType group key v => exact evolves_of_seen (seen_addPropertyType h group key v)
  | newObject hle hcls =>
    exact evolves_addObject fun hw => placed_bareObject hw hle fun hc => (hcls hc).symm
  | newSingleton hle hcls =>
    exact evolves_addObject fun hw => placed_bareObject hw hle fun hc => (hcls hc).symm
  | newArray elements hle hcls =>
    exact evolves_addObject fun hw =>
      ⟨hw.root_le, fun _ => Nat.one_pos, hle, fun hc => (hcls hc).symm⟩
  | newFunction name body hcls =>
    have hgroup : functionGroup ≤ iteratorGroup := by decide
    exact evolves_addObject fun hw => ⟨hw.root_le, fun _ => Nat.one_pos,
      Nat.le_trans hgroup hw.iteratorGroup_le, fun hc => (hcls hc).symm⟩
  | newArrayIterator target => exact evolves_newArrayIterator target
  | setNamed id key v => exact evolves_setNamed id key v
  | addSlot id old v hpos hle => exact evolves_addSlot id old v fun _ => ⟨hpos, hle⟩
  | setSlot id offset v => exact evolves_setSlot id offset v
  | setElement id index v => exact evolves_setElement id index v
  | setElementCount id size => exact evolves_setElementCount id size
  | preventExtensions id => exact evolves_preventExtensions id

theorem object_initial (id : ObjectId) : initial.object id = default := by cases id <;> rfl

/-- The heap that every state starts from is well formed. -/
theorem initial_wellFormed (classed : Prop) : initial.WellFormed classed := by
  have hshape (id : ShapeId) : initial.shape id = default ∨ initial.shape id = .root := by
    rcases id with _ | _ | id
    · exact .inl rfl
    · exact .inr rfl
    · exact .inl rfl
  refine
    { root_le := by decide
      iteratorGroup_le := by decide
      iteratorGroup_cls := rfl
      object := fun id => ?_
      transition := fun id key next hfind => ?_
      child := fun id parent key hparent _ => ?_ }
  · rw [object_initial]
    exact ⟨Nat.zero_le _, (fun he => by cases he), Nat.zero_le _, fun _ => rfl⟩
  · rcases hshape id with heq | heq <;> rw [heq] at hfind <;> cases hfind
  · rcases hshape id with heq | heq <;> rw [heq] at hparent <;> cases hparent

end Heap

namespace Operation

open Heap

variable {classed : Prop} {h h' : Heap}

@[simp] theorem toPropertyKey_string (h : Heap) (s : String) : toPropertyKey h (.string s) = .ok s := by
  simp [toPropertyKey, toText, textWithin]

theorem objectHasOwn_of_not_array {id : ObjectId} {key : PropertyKey} (harray : (h.object id).cls ≠ .array) :
    objectHasOwn h id key = h.hasOwnNamed id key := by
  unfold objectHasOwn
  rw [if_neg harray]

/-- The write of a property that came to its end was one of the length of an array, of an element, or of a
named property. -/
theorem setObjectProperty_cases {id : ObjectId} {key : PropertyKey} {v : Value}
    (hset : setObjectProperty h id key v = (.ok (), h')) :
    (∃ size, h' = h.modifyObject id (·.setElementCount size)) ∨
      (∃ index, h' = h.modifyObject id (·.setElement index v)) ∨ h' = (h.setNamed id key v).2 := by
  unfold setObjectProperty at hset
  split at hset
  · split at hset
    · obtain ⟨size, -, hset⟩ := given_eq_ok hset
      cases hset
      exact .inl ⟨size, rfl⟩
    · split at hset
      · cases hset
        exact .inr (.inl ⟨_, rfl⟩)
      · cases hset
        exact .inr (.inr rfl)
  · cases hset
    exact .inr (.inr rfl)

theorem working_setObjectProperty {id : ObjectId} {key : PropertyKey} {v : Value}
    (hset : setObjectProperty h id key v = (.ok (), h')) : Working classed h h' := by
  rcases setObjectProperty_cases hset with ⟨size, rfl⟩ | ⟨index, rfl⟩ | rfl
  · exact .setElementCount id size
  · exact .setElement id index v
  · exact .setNamed id key v

/-- A write that came to its end was dropped, or was one of a property of an object. -/
theorem setProperty_cases {target : Value} {key : PropertyKey} {v : Value}
    (hset : setProperty h target key v = (.ok (), h')) :
    h' = h ∨ ∃ id, target = .object id ∧ setObjectProperty h id key v = (.ok (), h') := by
  cases target with
  | object id => exact .inr ⟨id, rfl, hset⟩
  | undefined | null =>
    obtain ⟨_, -, hset⟩ := given_eq_ok hset
    cases hset
  | magic kind => cases hset
  | _ =>
    cases hset
    exact .inl rfl

/-- A write of an element that came to its end was one of an array's own, or of a property. -/
theorem setElement_cases {target index v : Value} (hset : setElement h target index v = (.ok (), h')) :
    (∃ id n, h' = setArrayElement h id n v) ∨
      ∃ key, toPropertyKey h index = .ok key ∧ setProperty h target key v = (.ok (), h') := by
  unfold setElement at hset
  split at hset
  · cases hset
    exact .inl ⟨_, _, rfl⟩
  · split at hset
    · obtain ⟨_, -, hset⟩ := given_eq_ok hset
      obtain ⟨_, -, hset⟩ := given_eq_ok hset
      cases hset
    · exact .inr (given_eq_ok hset)

/-- An iterator that could be made is a new object. -/
theorem getIterator_cases {v iterator : Value} (hget : getIterator h v = (.ok iterator, h')) :
    ∃ id, h' = (h.newArrayIterator id).2 := by
  unfold getIterator at hget
  split at hget
  · cases hget
    exact ⟨_, rfl⟩
  · obtain ⟨_, -, hget⟩ := given_eq_ok hget
    cases hget

theorem working_setProperty {target : Value} {key : PropertyKey} {v : Value}
    (hset : setProperty h target key v = (.ok (), h')) : h' = h ∨ Working classed h h' :=
  (setProperty_cases hset).imp_right fun ⟨_, _, hobject⟩ => working_setObjectProperty hobject

theorem working_setElement {target index v : Value} (hset : setElement h target index v = (.ok (), h')) :
    h' = h ∨ Working classed h h' := by
  rcases setElement_cases hset with ⟨id, n, rfl⟩ | ⟨key, -, hproperty⟩
  · exact .inr (.setElement id n v)
  · exact working_setProperty hproperty

theorem working_getIterator {v iterator : Value}
    (hget : getIterator h v = (.ok iterator, h')) : Working classed h h' := by
  obtain ⟨id, rfl⟩ := getIterator_cases hget
  exact .newArrayIterator id

theorem evolves_setProperty {target : Value} {key : PropertyKey} {v : Value}
    (hset : setProperty h target key v = (.ok (), h')) : h.Evolves classed h' := by
  obtain rfl | hworking : h' = h ∨ h.Working classed h' := working_setProperty hset
  · exact .refl classed h'
  · exact hworking.evolves

end Operation

namespace Request

variable {classed : Prop} {h h' : Heap} {r : Request} {v : Value}

/-- A request that came to its end left the heap alone, wrote a property or an element, or made an
iterator. -/
theorem outcome_cases (houtcome : r.outcome? h = some (.ok (v, h'))) :
    h' = h ∨ (∃ target key v', Operation.setProperty h target key v' = (.ok (), h')) ∨
      (∃ target index v', Operation.setElement h target index v' = (.ok (), h')) ∨
        ∃ target, Operation.getIterator h target = (.ok v, h') := by
  have hkeep {α : Type} {result : Except VmError α} {f : α → Value}
      (heq : (result.map fun a => (f a, h)) = .ok (v, h')) : h' = h := by
    cases result with
    | error e => cases heq
    | ok a =>
      cases heq
      rfl
  have hwrite {written : Except VmError Unit × Heap} {v' : Value}
      (heq : Operation.settled (Operation.giving v' written) = .ok (v, h')) : written = (.ok (), h') :=
    Operation.giving_eq_ok (Operation.settled_eq_ok heq)
  cases r with
  | call callee this args => cases houtcome
  | toBool v' =>
    cases houtcome
    exact .inl rfl
  | typeOf v' =>
    cases houtcome
    exact .inl rfl
  | setProp target key v' => exact .inr (.inl ⟨target, key, v', hwrite (Option.some.inj houtcome)⟩)
  | setElem target index v' =>
    exact .inr (.inr (.inl ⟨target, index, v', hwrite (Option.some.inj houtcome)⟩))
  | getIterator v' => exact .inr (.inr (.inr ⟨v', Operation.settled_eq_ok (Option.some.inj houtcome)⟩))
  | _ => exact .inl (hkeep (Option.some.inj houtcome))

/-- A request makes nothing of a heap, or one of the heap's own workings. -/
theorem working_outcome (houtcome : r.outcome? h = some (.ok (v, h'))) :
    h' = h ∨ h.Working classed h' := by
  rcases outcome_cases houtcome with
    rfl | ⟨target, key, v', hset⟩ | ⟨target, index, v', hset⟩ | ⟨target, hget⟩
  · exact .inl rfl
  · exact Operation.working_setProperty hset
  · exact Operation.working_setElement hset
  · exact .inr (Operation.working_getIterator hget)

/-- What a request makes of a heap comes after it. -/
theorem evolves_outcome (houtcome : r.outcome? h = some (.ok (v, h'))) : h.Evolves classed h' := by
  obtain rfl | hworking : h' = h ∨ h.Working classed h' := working_outcome houtcome
  · exact .refl classed h'
  · exact hworking.evolves

end Request

end InlineCache
