import InlineCache.Proofs.Stub.Fits

namespace InlineCache

/-- Two states of an object with the same properties and elements. -/
structure Object.SameProperties (o o' : Object) : Prop where
  shape : o.shape = o'.shape
  slots : o.slots = o'.slots
  elements : o.elements = o'.elements

/-- Only an array has properties that its shape does not hold. -/
theorem array_of_not_named {cls : ObjectClass} {key : PropertyKey} (hnamed : ¬ cls.Named key) :
    cls = .array :=
  Decidable.byContradiction fun hne => hnamed fun heq => absurd heq hne

namespace Heap

variable {h : Heap} {id : ObjectId} {key : PropertyKey}

theorem object_modifyObject_self (hpos : 0 < id) (hle : id ≤ h.objects.size) (f : Object → Object) :
    (h.modifyObject id f).object id = f (h.object id) :=
  Table.get_modify_self _ f hpos hle

theorem object_modifyObject_cases (h : Heap) (id : ObjectId) (f : Object → Object) :
    (h.modifyObject id f).object id = h.object id ∨
      (h.modifyObject id f).object id = f (h.object id) :=
  Table.get_modify_cases _ id f id

/-- An array is an object of the heap. -/
theorem pos_and_le_of_array (harray : (h.object id).cls = .array) : 0 < id ∧ id ≤ h.objects.size :=
  there_of_ne_default fun heq => by
    rw [heq] at harray
    cases harray

private theorem setNamed_of_offset {offset : Nat} (hoffset : (h.shapeOf id).offsetOf? key = some offset)
    (v : Value) : (h.setNamed id key v).2 = h.modifyObject id (·.setSlot offset v) := by
  simp only [setNamed, hoffset]

theorem setNamed_of_transition {next : ShapeId} (hnone : (h.shapeOf id).offsetOf? key = none)
    (hextensible : (h.object id).extensible = true)
    (hstep : (h.shapeOf id).transitions.find? key = some next) (v : Value) :
    (h.setNamed id key v).2 = h.appendSlot id next v := by
  have htransition : h.transition (h.object id).shape key = (next, h) := transition_of_find? hstep
  simp only [setNamed, hnone, hextensible, if_true, htransition]

end Heap

namespace Operation

variable {h h' : Heap} {id : ObjectId} {key : PropertyKey} {v : Value}

/-- The write of a named property is no more than that. -/
theorem setObjectProperty_of_named (hnamed : (h.object id).cls.Named key) :
    setObjectProperty h id key v = (.ok (), setNamedProperty h id key v) := by
  unfold setObjectProperty
  split
  · next harray =>
    obtain ⟨hlength, hindex⟩ := hnamed harray
    simp only [if_neg hlength, hindex]
  · rfl

/-- The write of the length of an array, or of an element, changes nothing but the elements. -/
theorem object_of_not_named (hnamed : ¬ (h.object id).cls.Named key)
    (hset : setObjectProperty h id key v = (.ok (), h')) :
    ∃ elements, h'.object id = { h.object id with elements := elements } := by
  have harray := array_of_not_named hnamed
  unfold setObjectProperty at hset
  rw [if_pos harray] at hset
  have hmodify {f : Object → Object} (hf : ∀ o : Object, ∃ elements, f o = { o with elements := elements }) :
      ∃ elements, (h.modifyObject id f).object id = { h.object id with elements := elements } := by
    rcases Heap.object_modifyObject_cases h id f with heq | heq <;> rw [heq]
    · exact ⟨_, rfl⟩
    · exact hf _
  split at hset
  · obtain ⟨size, -, hset⟩ := given_eq_ok hset
    cases hset
    exact hmodify fun o => ⟨_, rfl⟩
  · next hlength =>
    split at hset
    · cases hset
      exact hmodify fun o => ⟨_, rfl⟩
    · next hindex => exact absurd (fun _ => ⟨hlength, hindex⟩) hnamed

end Operation

section

variable {σ : Type} {classed : Prop} {w : World σ} {key : PropertyKey} {signature : Signature}
  {stub : Stub} {id : ObjectId} {v : Value}

theorem Request.object_setProp_of_not_named (natives : Natives σ) (v : Value)
    (hnamed : ¬ (w.heap.object id).cls.Named key) : ∃ elements,
      ((Request.setProp (.object id) key v).perform natives w).2.heap.object id =
        { w.heap.object id with elements := elements } := by
  change ∃ elements, (Operation.setObjectProperty w.heap id key v).2.object id = _
  rcases (Operation.keepsOnError_setObjectProperty w.heap id key v).cases with heq | ⟨_, hset⟩
  · rw [heq]
    exact ⟨_, rfl⟩
  · exact Operation.object_of_not_named hnamed hset

/-- What a stub for the write of a property does with an object that its guard accepts. The guard
compares the group and the shape of the object, and lets arrays through, whose length and elements are
in no shape. -/
theorem StubFits.run_write (natives : Natives σ)
    (hfits : StubFits classed w.heap (.setProp key) signature stub.payload)
    (hguard : Guard.holds w.heap signature stub (.binary (.object id) v) = true) :
    (signature = .setPropSlot ∧ ∃ offset, (w.heap.shapeOf id).offsetOf? key = some offset ∧
      Handler.run natives signature stub (.binary (.object id) v) w =
        (.ok v, w.mapHeap fun h => h.modifyObject id (·.setSlot offset v))) ∨
    (signature = .addSlot ∧ ∃ next, (w.heap.shapeOf id).offsetOf? key = none ∧
      (w.heap.object id).extensible = true ∧
      (w.heap.shapeOf id).transitions.find? key = some next ∧
      Handler.run natives signature stub (.binary (.object id) v) w =
        (.ok v, w.mapHeap fun h => h.appendSlot id next v)) := by
  cases hpayload : stub.payload with
  | slot cls group shape offset =>
    rw [hpayload] at hfits
    cases hfits with
    | setPropSlot _ _ _ hoffset =>
      simp only [Guard.holds, hpayload, Guard.writeSlot, Bool.and_eq_true, beq_iff_eq] at hguard
      refine .inl ⟨rfl, offset, ?_, ?_⟩
      · rw [Heap.shapeOf, hguard.2]
        exact hoffset
      · simp only [Handler.run, hpayload, Handler.writeSlot]
  | addSlot group old new =>
    rw [hpayload] at hfits
    cases hfits with
    | addSlot _ _ _ hnone hstep =>
      simp only [Guard.holds, hpayload, Guard.addSlot, Bool.and_eq_true, beq_iff_eq] at hguard
      obtain ⟨⟨-, hshape⟩, hextensible⟩ := hguard
      have hshapeOf : w.heap.shapeOf id = w.heap.shape old := by rw [Heap.shapeOf, hshape]
      refine .inr ⟨rfl, new, ?_, hextensible, ?_, ?_⟩
      · rw [hshapeOf]
        exact hnone
      · rw [hshapeOf]
        exact hstep
      · simp only [Handler.run, hpayload, Handler.addSlot, Heap.addSlot, hshape, hextensible, and_self,
          if_true]
        rfl
  | _ =>
    rw [hpayload] at hfits
    cases hfits

/-- A named property is written by a stub as it is in full. -/
theorem StubFits.run_write_of_named (natives : Natives σ)
    (hfits : StubFits classed w.heap (.setProp key) signature stub.payload)
    (hguard : Guard.holds w.heap signature stub (.binary (.object id) v) = true)
    (hnamed : (w.heap.object id).cls.Named key) :
    Handler.run natives signature stub (.binary (.object id) v) w =
      (Request.setProp (.object id) key v).perform natives w := by
  have hperform : (Request.setProp (.object id) key v).perform natives w =
      (.ok v, w.mapHeap fun h => Operation.setNamedProperty h id key v) := by
    simp only [Request.perform, World.onHeap, Operation.setProperty,
      Operation.setObjectProperty_of_named hnamed]
    rfl
  rw [hperform]
  rcases hfits.run_write natives hguard with
    ⟨-, offset, hoffset, hrun⟩ | ⟨-, next, hnone, hextensible, hstep, hrun⟩ <;> rw [hrun]
  · simp only [World.mapHeap, Operation.setNamedProperty, Heap.setNamed_of_offset hoffset]
  · simp only [World.mapHeap, Operation.setNamedProperty,
      Heap.setNamed_of_transition hnone hextensible hstep]

/-- Where a key is no named property of an object, a stub that writes to it leaves the object as the write
in full does only if neither changes it, and then the stub is none that adds a slot. -/
theorem StubFits.run_write_of_not_named (natives : Natives σ)
    (hfits : StubFits classed w.heap (.setProp key) signature stub.payload)
    (hguard : Guard.holds w.heap signature stub (.binary (.object id) v) = true)
    (hnamed : ¬ (w.heap.object id).cls.Named key) :
    ((Handler.run natives signature stub (.binary (.object id) v) w).2.heap.object id).SameProperties
        (((Request.setProp (.object id) key v).perform natives w).2.heap.object id) ↔
      signature = .setPropSlot ∧
        (Handler.run natives signature stub (.binary (.object id) v) w).2.heap.object id =
          w.heap.object id ∧
        ((Request.setProp (.object id) key v).perform natives w).2.heap.object id =
          w.heap.object id := by
  obtain ⟨hpos, hle⟩ := Heap.pos_and_le_of_array (array_of_not_named hnamed)
  obtain ⟨elements, hfull⟩ := Request.object_setProp_of_not_named natives v hnamed
  constructor
  · rintro ⟨hshape, hslots, helements⟩
    rw [hfull] at hshape hslots helements
    rcases hfits.run_write natives hguard with ⟨hsig, offset, -, hrun⟩ | ⟨-, next, -, -, -, hrun⟩
    · rw [hrun] at hslots helements ⊢
      have hobject : (w.mapHeap fun h => h.modifyObject id (·.setSlot offset v)).heap.object id =
          (w.heap.object id).setSlot offset v := Heap.object_modifyObject_self hpos hle _
      dsimp only at hslots helements ⊢
      rw [hobject] at hslots helements ⊢
      refine ⟨hsig, ?_, ?_⟩
      · have hkeep : (w.heap.object id).slots.setIfInBounds offset v = (w.heap.object id).slots := hslots
        rw [Object.setSlot, hkeep]
      · rw [hfull, ← helements]
        rfl
    · rw [hrun] at hslots
      have hobject : (w.mapHeap fun h => h.appendSlot id next v).heap.object id =
          { w.heap.object id with slots := (w.heap.object id).slots.push v, shape := next } :=
        Heap.object_modifyObject_self hpos hle _
      dsimp only at hslots
      rw [hobject] at hslots
      have hsize := congrArg Array.size hslots
      simp at hsize
  · rintro ⟨-, hrun, hperform⟩
    rw [hrun, hperform]
    exact ⟨rfl, rfl, rfl⟩

end

end InlineCache
