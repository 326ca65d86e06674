import InlineCache.Proofs.Heap.Forest
import InlineCache.Proofs.Stub.Write
import Mathlib.Data.List.Nodup

namespace InlineCache

namespace Heap

/-- The names of an object's properties, in the order in which its shape gained them. -/
def names (h : Heap) (id : ObjectId) : List PropertyKey := (h.addedKeys (h.object id).shape).reverse

/-- A heap in which every object has a slot for each of its names, of which none is there twice. -/
structure Laid (h : Heap) : Prop where
  wellFormed : h.WellFormed False
  forest : h.Forest
  nodup : ∀ id, (h.names id).Nodup
  slots_size : ∀ id, (h.object id).slots.size = (h.names id).length

variable {h h' : Heap}

theorem object_modifyObject_of_ne {id target : ObjectId} (f : Object → Object) (hne : id ≠ target) :
    (h.modifyObject target f).object id = h.object id :=
  Table.get_modify_of_ne _ f hne

theorem Laid.ordered (hl : h.Laid) (id : ObjectId) : (h.shapeOf id).Ordered (h.names id) :=
  hl.forest.ordered (List.nodup_reverse.1 (hl.nodup id))

/-- No two names of an object have the same slot. -/
theorem Laid.key_eq (hl : h.Laid) {id : ObjectId} {key key' : PropertyKey} {offset : Nat}
    (hkey : (h.shapeOf id).offsetOf? key = some offset)
    (hkey' : (h.shapeOf id).offsetOf? key' = some offset) : key = key' := by
  rw [(hl.ordered id).offset_iff] at hkey hkey'
  exact Option.some.inj (hkey.symm.trans hkey')

end Heap

/-- What an action does to the named properties of one object, where `written` are the names that the
action is meant to write. -/
inductive Object.Change (h h' : Heap) (o o' : Object) (written : PropertyKey → Prop) : Prop where
  | keep (hshape : o'.shape = o.shape) (hslots : o'.slots = o.slots)
  | write (offset : Nat) (v : Value) (hshape : o'.shape = o.shape)
      (hslots : o'.slots = o.slots.setIfInBounds offset v)
      (hwritten : ∀ key, (h.shape o.shape).offsetOf? key = some offset → written key)
  | gain (key : PropertyKey) (v : Value) (hnew : (h.shape o.shape).offsetOf? key = none)
      (hstep : (h'.shape o.shape).transitions.find? key = some o'.shape)
      (hslots : o'.slots = o.slots.push v) (hwritten : written key)

namespace Heap

/-- All that comes of an action: shapes, and objects of before and new ones. -/
structure Stepped (h h' : Heap) (written : ObjectId → PropertyKey → Prop) : Prop where
  evolves : h.Evolves False h'
  forest : h'.Forest
  change : ∀ id ≤ h.objects.size, Object.Change h h' (h.object id) (h'.object id) (written id)
  /-- A new object has no properties. -/
  created : ∀ id, h.objects.size < id → id ≤ h'.objects.size →
    (h'.object id).slots = #[] ∧ (h'.shapeOf id).parent = none

variable {h h' : Heap} {written written' : ObjectId → PropertyKey → Prop}

namespace Stepped

theorem mono (hs : Stepped h h' written) (hsub : ∀ id key, written id key → written' id key) :
    Stepped h h' written' where
  evolves := hs.evolves
  forest := hs.forest
  created := hs.created
  change id hid := by
    cases hs.change id hid with
    | keep hshape hslots => exact .keep hshape hslots
    | write offset v hshape hslots hwritten =>
      exact .write offset v hshape hslots fun key hkey => hsub id key (hwritten key hkey)
    | gain key v hnew hstep hslots hwritten =>
      exact .gain key v hnew hstep hslots (hsub id key hwritten)

/-- What leaves objects alone. -/
theorem of_objects_eq (hevolves : h.Evolves False h') (hforest : h'.Forest)
    (hobjects : h'.objects = h.objects) : Stepped h h' written where
  evolves := hevolves
  forest := hforest
  change id _ := by
    rw [object, object, hobjects]
    exact .keep rfl rfl
  created id hlt hle := by
    rw [hobjects] at hle
    exact absurd hlt (Nat.not_lt.2 hle)

theorem refl (hl : h.Laid) : Stepped h h written := of_objects_eq (.refl False h) hl.forest rfl

/-- A change of one object. -/
theorem modifyObject (hl : h.Laid) {target : ObjectId} {f : Object → Object}
    (hevolves : h.Evolves False (h.modifyObject target f))
    (hchange : Object.Change h (h.modifyObject target f) (h.object target) (f (h.object target))
      (written target)) : Stepped h (h.modifyObject target f) written where
  evolves := hevolves
  forest := forest_of_shapes_eq hl.forest rfl
  change id _ := by
    by_cases hid : id = target
    · subst hid
      rcases object_modifyObject_cases h id f with heq | heq <;> rw [heq]
      · exact .keep rfl rfl
      · exact hchange
    · rw [object_modifyObject_of_ne f hid]
      exact .keep rfl rfl
  created id hlt hle := by
    rw [Heap.modifyObject, Table.size_modify] at hle
    exact absurd hlt (Nat.not_lt.2 hle)

/-- What comes after shapes were made. -/
theorem after {h₁ : Heap} (hw : h.WellFormed False) (he : h.Evolves False h₁)
    (hobjects : h₁.objects = h.objects) (hs : Stepped h₁ h' written) : Stepped h h' written where
  evolves := he.trans hs.evolves
  forest := hs.forest
  change id hid := by
    have hobject : h₁.object id = h.object id := by rw [object, hobjects, object]
    have hoffset := ((he hw).1.shape _ (hw.object id).shape_le).offsetOf?_eq
    have hchange := hs.change id (by rw [hobjects]; exact hid)
    rw [hobject] at hchange
    cases hchange with
    | keep hshape hslots => exact .keep hshape hslots
    | write offset v hshape hslots hwritten =>
      exact .write offset v hshape hslots fun key hkey => hwritten key ((hoffset key).trans hkey)
    | gain key v hnew hstep hslots hwritten =>
      exact .gain key v ((hoffset key).symm.trans hnew) hstep hslots hwritten
  created id hlt := hs.created id (by rw [hobjects]; exact hlt)

end Stepped

private theorem stepped_setElement (hl : h.Laid) (id : ObjectId) (index : Nat) (v : Value) :
    Stepped h (h.modifyObject id (·.setElement index v)) written :=
  .modifyObject hl (evolves_setElement id index v) (.keep rfl rfl)

private theorem stepped_setElementCount (hl : h.Laid) (id : ObjectId) (size : Nat) :
    Stepped h (h.modifyObject id (·.setElementCount size)) written :=
  .modifyObject hl (evolves_setElementCount id size) (.keep rfl rfl)

private theorem stepped_preventExtensions (hl : h.Laid) (id : ObjectId) :
    Stepped h (h.preventExtensions id) written :=
  .modifyObject hl (evolves_preventExtensions id) (.keep rfl rfl)

/-- The write of a slot is one of the name that has the slot, if there is one. -/
theorem stepped_setSlot (hl : h.Laid) (id : ObjectId) (offset : Nat) (v : Value) :
    Stepped h (h.modifyObject id (·.setSlot offset v))
      fun other key => other = id ∧ (h.shapeOf id).offsetOf? key = some offset :=
  .modifyObject hl (evolves_setSlot id offset v)
    (.write offset v rfl rfl fun _ hkey => ⟨rfl, hkey⟩)

/-- The move of an object to the shape that its own one leads to for a name that it lacks. -/
theorem stepped_appendSlot (hl : h.Laid) {id : ObjectId} {next : ShapeId} {key : PropertyKey}
    (hnew : (h.shapeOf id).offsetOf? key = none)
    (hstep : (h.shapeOf id).transitions.find? key = some next) (v : Value) :
    Stepped h (h.appendSlot id next v) fun other k => other = id ∧ k = key :=
  .modifyObject hl (evolves_appendSlot id v fun _ => hl.wellFormed.transition _ _ _ hstep)
    (.gain key v hnew hstep rfl ⟨rfl, rfl⟩)

theorem object_transition (h : Heap) (shape : ShapeId) (key : PropertyKey) (id : ObjectId) :
    (h.transition shape key).2.object id = h.object id := by
  rw [object, objects_transition, object]

theorem Laid.transition (hl : h.Laid) {id : ShapeId} (hpos : 0 < id) (hle : id ≤ h.shapes.size)
    (key : PropertyKey) : (h.transition id key).2.Laid := by
  obtain ⟨hgrows, hw'⟩ := evolves_transition hpos hle key hl.wellFormed
  have hf' := forest_transition hl.forest hpos hle key
  have hnames (other : ObjectId) : (h.transition id key).2.names other = h.names other := by
    have hlineage := hl.forest.lineage_of_grows hf' hgrows (hl.wellFormed.object other).shape_le
    rw [names, object_transition, names]
    exact congrArg (fun l => l.added.reverse) hlineage
  refine ⟨hw', hf', fun other => ?_, fun other => ?_⟩
  · rw [hnames]
    exact hl.nodup other
  · rw [object_transition, hnames]
    exact hl.slots_size other

/-- The write of a named property is no write of another name. -/
theorem stepped_setNamed (hl : h.Laid) (id : ObjectId) (key : PropertyKey) (v : Value) :
    Stepped h (h.setNamed id key v).2 fun other k => other = id ∧ k = key := by
  unfold setNamed
  split
  · next offset hoffset =>
    refine (stepped_setSlot hl id offset v).mono fun other k hk => ⟨hk.1, ?_⟩
    exact hl.key_eq hk.2 hoffset
  · next hnew =>
    split
    · next hextensible =>
      have ho := hl.wellFormed.object id
      have hpos := ho.shape_pos hextensible
      have hevolves : h.Evolves False (h.transition (h.object id).shape key).2 :=
        evolves_transition hpos ho.shape_le key
      have hoffset := ((hevolves hl.wellFormed).1.shape _ ho.shape_le).offsetOf?_eq key
      refine .after hl.wellFormed hevolves (objects_transition h _ key) ?_
      refine stepped_appendSlot (hl.transition hpos ho.shape_le key) ?_ ?_ v
      · rw [shapeOf, object_transition, hoffset]
        exact hnew
      · rw [shapeOf, object_transition]
        exact find?_transition hpos ho.shape_le key
    · exact .refl hl

/-- A step from one shape to another by a name that the first one lacks. -/
structure Adds (h : Heap) (old new : ShapeId) (key : PropertyKey) : Prop where
  step : (h.shape old).transitions.find? key = some new
  lacks : (h.shape old).offsetOf? key = none

private theorem Adds.key_eq (hl : h.Laid) {old new : ShapeId} {key : PropertyKey}
    (hadds : h.Adds old new key) :
    (h.shape new).key = some key := (hl.forest.parent_eq _ _ _ hadds.step).2

private theorem stepped_addSlot (hl : h.Laid) (id : ObjectId) {old new : ShapeId} {key : PropertyKey}
    (hadds : h.Adds old new key) (v : Value) :
    Stepped h (h.addSlot id old new v).2 fun other k => other = id ∧ k = key := by
  unfold addSlot
  split
  · next hshape =>
    obtain ⟨rfl, -⟩ := hshape
    exact stepped_appendSlot hl hadds.lacks hadds.step v
  · exact .refl hl

theorem stepped_setObjectProperty (hl : h.Laid) {id : ObjectId} {key : PropertyKey} {v : Value}
    (hset : Operation.setObjectProperty h id key v = (.ok (), h')) :
    Stepped h h' fun other k => other = id ∧ k = key := by
  rcases Operation.setObjectProperty_cases hset with ⟨size, rfl⟩ | ⟨index, rfl⟩ | rfl
  · exact stepped_setElementCount hl id size
  · exact stepped_setElement hl id index v
  · exact stepped_setNamed hl id key v

private theorem stepped_setProperty (hl : h.Laid) {target : Value} {key : PropertyKey} {v : Value}
    (hset : Operation.setProperty h target key v = (.ok (), h')) :
    Stepped h h' fun id k => target = .object id ∧ k = key := by
  rcases Operation.setProperty_cases hset with rfl | ⟨id, rfl, hobject⟩
  · exact .refl hl
  · exact (stepped_setObjectProperty hl hobject).mono fun _ _ hk => ⟨by rw [hk.1], hk.2⟩

private theorem stepped_setElementOf (hl : h.Laid) {target index v : Value}
    (hset : Operation.setElement h target index v = (.ok (), h')) :
    Stepped h h' fun id k => target = .object id ∧ Operation.toPropertyKey h index = .ok k := by
  rcases Operation.setElement_cases hset with ⟨id, n, rfl⟩ | ⟨key, hkey, hproperty⟩
  · exact stepped_setElement hl id n v
  · exact (stepped_setProperty hl hproperty).mono fun _ _ hk => ⟨hk.1, by rw [hkey, hk.2]⟩

end Heap

/-- What is done with a heap, one thing at a time. -/
inductive HeapAction where
  | addRoot
  | transition (id : ShapeId) (key : PropertyKey)
  | addGroup (g : Group)
  /-- A new object without properties. -/
  | create (cls : ObjectClass) (group : GroupId) (singleton : Bool) (root : ShapeId)
    (elements : Array Value) (function : Option NativeFunction)
  | setNamed (id : ObjectId) (key : PropertyKey) (v : Value)
  | addSlot (id : ObjectId) (old new : ShapeId) (v : Value)
  | setSlot (id : ObjectId) (offset : Nat) (v : Value)
  | setElement (id : ObjectId) (index : Nat) (v : Value)
  | setElementCount (id : ObjectId) (size : Nat)
  | preventExtensions (id : ObjectId)
  /-- The write of a property of any value. -/
  | setProperty (target : Value) (key : PropertyKey) (v : Value)
  /-- The write of an element of any value. -/
  | setElementOf (target index v : Value)
  /-- The run of a stub that writes a slot, whether its guard holds or not. -/
  | writeSlotStub (payload : Payload) (ops : Operands)
  /-- The run of a stub that adds a slot, whether its guard holds or not. -/
  | addSlotStub (payload : Payload) (ops : Operands)

namespace Heap

/-- A state with a heap, for stubs to run in. They touch nothing else of it. -/
def staged (h : Heap) : World Unit := { (default : World Unit) with heap := h }

def act (h : Heap) : HeapAction → Heap
  | .addRoot => h.addRoot.2
  | .transition id key => (h.transition id key).2
  | .addGroup g => (h.addGroup g).2
  | .create cls group singleton root elements function =>
    (h.addObject ⟨cls, group, singleton, true, root, #[], elements, function⟩).2
  | .setNamed id key v => (h.setNamed id key v).2
  | .addSlot id old new v => (h.addSlot id old new v).2
  | .setSlot id offset v => h.modifyObject id (·.setSlot offset v)
  | .setElement id index v => h.modifyObject id (·.setElement index v)
  | .setElementCount id size => h.modifyObject id (·.setElementCount size)
  | .preventExtensions id => h.preventExtensions id
  | .setProperty target key v => (Operation.setProperty h target key v).2
  | .setElementOf target index v => (Operation.setElement h target index v).2
  | .writeSlotStub payload ops => (Handler.writeSlot h.staged payload ops).2.heap
  | .addSlotStub payload ops => (Handler.addSlot h.staged payload ops).2.heap

/-- What a stub that writes a slot leaves of a heap, in any state. -/
theorem heap_run_setPropSlot {σ : Type} (natives : Natives σ) (stub : Stub) (ops : Operands)
    (w : World σ) : (Handler.run natives .setPropSlot stub ops w).2.heap =
      w.heap.act (.writeSlotStub stub.payload ops) := by
  change (Handler.writeSlot w stub.payload ops).2.heap =
    (Handler.writeSlot w.heap.staged stub.payload ops).2.heap
  unfold Handler.writeSlot
  split <;> rfl

/-- What a stub that adds a slot leaves of a heap, in any state. -/
theorem heap_run_addSlot {σ : Type} (natives : Natives σ) (stub : Stub) (ops : Operands)
    (w : World σ) : (Handler.run natives .addSlot stub ops w).2.heap =
      w.heap.act (.addSlotStub stub.payload ops) := by
  change (Handler.addSlot w stub.payload ops).2.heap =
    (Handler.addSlot w.heap.staged stub.payload ops).2.heap
  have hstaged : w.heap.staged.heap = w.heap := rfl
  unfold Handler.addSlot
  rw [hstaged]
  split
  · next group old new id v _ =>
    rcases w.heap.addSlot id old new v with ⟨_ | _, h⟩
    · dsimp only
      split
      · rfl
      · rfl
    · rfl
  · rfl
  · rfl

def run (h : Heap) (actions : List HeapAction) : Heap := actions.foldl act h

/-- Whether what an action names is there, and a slot is only added by a step that adds a name. -/
def Allows (h : Heap) : HeapAction → Prop
  | .transition id _ => 0 < id ∧ id ≤ h.shapes.size
  | .create _ group _ root _ _ =>
    group ≤ h.groups.size ∧ 0 < root ∧ root ≤ h.shapes.size ∧ (h.shape root).parent = none
  | .addSlot _ old new _ => ∃ key, h.Adds old new key
  | .addSlotStub (.addSlot _ old new) _ => ∃ key, h.Adds old new key
  | _ => True

/-- Whether all actions of a run are allowed. -/
def Obeys : Heap → List HeapAction → Prop
  | _, [] => True
  | h, a :: rest => h.Allows a ∧ Obeys (h.act a) rest

/-- Whether an action is meant to write a named property of an object. -/
def Writes (h : Heap) (id : ObjectId) (key : PropertyKey) : HeapAction → Prop
  | .setNamed target name _ => id = target ∧ key = name
  | .addSlot target _ new _ => id = target ∧ (h.shape new).key = some key
  | .setSlot target offset _ => id = target ∧ (h.shapeOf target).offsetOf? key = some offset
  | .setProperty target name _ => target = .object id ∧ key = name
  | .setElementOf target index _ =>
    target = .object id ∧ Operation.toPropertyKey h index = .ok key
  | .writeSlotStub (.slot _ _ _ offset) (.binary target _) =>
    target = .object id ∧ (h.shapeOf id).offsetOf? key = some offset
  | .addSlotStub (.addSlot _ _ new) (.binary target _) =>
    target = .object id ∧ (h.shape new).key = some key
  | _ => False

variable {h : Heap}

theorem object_act_create (h : Heap) (cls : ObjectClass) (group : GroupId) (singleton : Bool)
    (root : ShapeId) (elements : Array Value) (function : Option NativeFunction) :
    (h.act (.create cls group singleton root elements function)).object h.objects.next =
      ⟨cls, group, singleton, true, root, #[], elements, function⟩ := Table.get_add_next _ _

private theorem stepped_create (hl : h.Laid) {cls : ObjectClass} {group : GroupId} {singleton : Bool}
    {root : ShapeId} {elements : Array Value} {function : Option NativeFunction}
    (ha : h.Allows (.create cls group singleton root elements function)) :
    Stepped h (h.act (.create cls group singleton root elements function)) written := by
  obtain ⟨hgroup, hpos, hle, hroot⟩ := ha
  exact
    { evolves := evolves_addObject fun _ => ⟨hle, fun _ => hpos, hgroup, False.elim⟩
      forest := forest_of_shapes_eq hl.forest rfl
      change := fun id hid => by
        have hsame : (h.act (.create cls group singleton root elements function)).object id = h.object id :=
          Table.get_add_of_le _ _ hid
        rw [hsame]
        exact .keep rfl rfl
      created := fun id hlt hid => by
        have hsize : (h.act (.create cls group singleton root elements function)).objects.size =
            h.objects.size + 1 := Table.size_add _ _
        obtain rfl : id = h.objects.next :=
          Nat.le_antisymm (Nat.le_trans hid (Nat.le_of_eq hsize)) hlt
        rw [shapeOf, object_act_create]
        exact ⟨rfl, hroot⟩ }

private theorem stepped_writeSlotStub (hl : h.Laid) (payload : Payload) (ops : Operands) :
    Stepped h (h.act (.writeSlotStub payload ops)) fun id key =>
      h.Writes id key (.writeSlotStub payload ops) := by
  simp only [act]
  unfold Handler.writeSlot
  split
  · next cls group shape offset id v =>
    exact (stepped_setSlot hl id offset v).mono fun _ _ hk => by
      obtain ⟨rfl, hkey⟩ := hk
      exact ⟨rfl, hkey⟩
  · exact .refl hl
  · exact .refl hl

private theorem stepped_addSlotStub (hl : h.Laid) {payload : Payload} {ops : Operands}
    (ha : h.Allows (.addSlotStub payload ops)) :
    Stepped h (h.act (.addSlotStub payload ops)) fun id key =>
      h.Writes id key (.addSlotStub payload ops) := by
  simp only [act]
  unfold Handler.addSlot
  split
  · next group old new id v =>
    obtain ⟨key, hadds⟩ := ha
    have hkey := hadds.key_eq hl
    have hstaged : h.staged.heap = h := rfl
    have hadded := stepped_addSlot hl id hadds v
    rw [hstaged]
    cases hadd : h.addSlot id old new v with
    | mk added h₁ =>
    rw [hadd] at hadded
    cases added with
    | true => exact hadded.mono fun _ _ hk => ⟨by rw [hk.1], by rw [hk.2, hkey]⟩
    | false =>
      simp only [hkey]
      change Stepped h (Operation.setProperty h (.object id) key v).2 _
      rcases (Operation.keepsOnError_setProperty h (.object id) key v).cases with heq | ⟨_, hset⟩
      · rw [heq]
        exact .refl hl
      · exact (stepped_setProperty hl hset).mono fun _ _ hk => ⟨hk.1, by rw [hk.2, hkey]⟩
  · exact .refl hl
  · exact .refl hl

theorem stepped_act (hl : h.Laid) {a : HeapAction} (ha : h.Allows a) :
    Stepped h (h.act a) fun id key => h.Writes id key a := by
  cases a with
  | addRoot => exact .of_objects_eq (evolves_addRoot False h) (forest_addRoot hl.forest) rfl
  | transition id key =>
    exact .of_objects_eq (evolves_transition ha.1 ha.2 key) (forest_transition hl.forest ha.1 ha.2 key)
      (objects_transition h id key)
  | addGroup g => exact .of_objects_eq (evolves_addGroup False h g) (forest_of_shapes_eq hl.forest rfl) rfl
  | create cls group singleton root elements function => exact stepped_create hl ha
  | setNamed target name v => exact stepped_setNamed hl target name v
  | addSlot target old new v =>
    obtain ⟨key, hadds⟩ := ha
    exact (stepped_addSlot hl target hadds v).mono fun _ _ hk => ⟨hk.1, by rw [hk.2, hadds.key_eq hl]⟩
  | setSlot target offset v => exact stepped_setSlot hl target offset v
  | setElement target index v => exact stepped_setElement hl target index v
  | setElementCount target size => exact stepped_setElementCount hl target size
  | preventExtensions target => exact stepped_preventExtensions hl target
  | setProperty target name v =>
    simp only [act]
    rcases (Operation.keepsOnError_setProperty h target name v).cases with heq | ⟨_, hset⟩
    · rw [heq]
      exact .refl hl
    · exact stepped_setProperty hl hset
  | setElementOf target index v =>
    simp only [act]
    rcases (Operation.keepsOnError_setElement h target index v).cases with heq | ⟨_, hset⟩
    · rw [heq]
      exact .refl hl
    · exact stepped_setElementOf hl hset
  | writeSlotStub payload ops => exact stepped_writeSlotStub hl payload ops
  | addSlotStub payload ops => exact stepped_addSlotStub hl ha

end Heap

end InlineCache
