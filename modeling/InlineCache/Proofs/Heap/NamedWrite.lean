import InlineCache.Proofs.Heap.Layout
import InlineCache.Proofs.Stub.Write

namespace InlineCache

namespace Heap

variable {h : Heap} {id other : ObjectId} {key : PropertyKey}

private theorem setNamed_cases (h : Heap) (id : ObjectId) (key : PropertyKey) (v : Value) :
    (∃ offset, (h.shapeOf id).offsetOf? key = some offset ∧
      (h.setNamed id key v).2 = h.modifyObject id (·.setSlot offset v)) ∨
    ((h.shapeOf id).offsetOf? key = none ∧ (h.object id).extensible = true ∧
      (h.setNamed id key v).2 = (h.transition (h.object id).shape key).2.appendSlot id
        (h.transition (h.object id).shape key).1 v) ∨
    ((h.shapeOf id).offsetOf? key = none ∧ (h.object id).extensible = false ∧
      (h.setNamed id key v).2 = h) := by
  unfold setNamed
  split
  · next offset hoffset => exact .inl ⟨offset, hoffset, rfl⟩
  · next hnone =>
    split
    · next hextensible => exact .inr (.inl ⟨hnone, hextensible, rfl⟩)
    · next hclosed => exact .inr (.inr ⟨hnone, Bool.not_eq_true _ ▸ hclosed, rfl⟩)

/-- Of the object itself, only the slots and the shape change. -/
theorem object_setNamed (h : Heap) (id : ObjectId) (key : PropertyKey) (v : Value) :
    ∃ slots shape, (h.setNamed id key v).2.object id =
      { h.object id with slots := slots, shape := shape } := by
  rcases setNamed_cases h id key v with ⟨offset, -, heq⟩ | ⟨-, -, heq⟩ | ⟨-, -, heq⟩ <;> rw [heq]
  · rcases object_modifyObject_cases h id (·.setSlot offset v) with hobject | hobject <;> rw [hobject]
    · exact ⟨_, _, rfl⟩
    · exact ⟨_, _, rfl⟩
  · rw [appendSlot]
    rcases object_modifyObject_cases _ id _ with hobject | hobject <;> rw [hobject, object_transition]
    · exact ⟨_, _, rfl⟩
    · exact ⟨_, _, rfl⟩
  · exact ⟨_, _, rfl⟩

theorem object_setNamed_of_ne (hne : other ≠ id) (key : PropertyKey) (v : Value) :
    (h.setNamed id key v).2.object other = h.object other := by
  rcases setNamed_cases h id key v with ⟨offset, -, heq⟩ | ⟨-, -, heq⟩ | ⟨-, -, heq⟩ <;> rw [heq]
  · exact object_modifyObject_of_ne _ hne
  · rw [appendSlot, object_modifyObject_of_ne _ hne, object_transition]

theorem elements_setNamed (h : Heap) (id : ObjectId) (key : PropertyKey) (v : Value) (other : ObjectId) :
    ((h.setNamed id key v).2.object other).elements = (h.object other).elements := by
  rcases Decidable.em (other = id) with rfl | hne
  · obtain ⟨_, _, heq⟩ := object_setNamed h other key v
    rw [heq]
  · rw [object_setNamed_of_ne hne]

/-- A name that is not there and cannot be added is not written. -/
theorem setNamed_of_closed (habsent : h.hasOwnNamed id key = false)
    (hclosed : (h.object id).extensible = false) (v : Value) : (h.setNamed id key v).2 = h := by
  rcases setNamed_cases h id key v with ⟨offset, hoffset, -⟩ | ⟨-, hextensible, -⟩ | ⟨-, -, heq⟩
  · rw [hasOwnNamed, hoffset] at habsent
    cases habsent
  · rw [hclosed] at hextensible
    cases hextensible
  · exact heq

section

variable (hl : h.Laid) (hpos : 0 < id) (hle : id ≤ h.objects.size)

include hl hpos hle

private theorem getOwn?_setSlot {offset : Nat} (hoffset : (h.shapeOf id).offsetOf? key = some offset)
    (v : Value) : (h.modifyObject id (·.setSlot offset v)).getOwn? id key = some v := by
  have hobject : (h.modifyObject id (·.setSlot offset v)).object id = (h.object id).setSlot offset v :=
    object_modifyObject_self hpos hle _
  have hshape : (h.modifyObject id (·.setSlot offset v)).shapeOf id = h.shapeOf id := by
    rw [shapeOf, hobject]
    rfl
  rw [getOwn?, hshape, hoffset, hobject, Option.map_some, Object.slot, Object.setSlot,
    Array.getElem?_setIfInBounds_self_of_lt (hl.lt_slots_size hoffset), Option.getD_some]

/-- A name that is added has the slot after all others. -/
theorem getOwn?_appendSlot {next : ShapeId} (hnew : (h.shapeOf id).offsetOf? key = none)
    (hstep : (h.shapeOf id).transitions.find? key = some next) (v : Value) :
    (h.appendSlot id next v).getOwn? id key = some v := by
  have hobject : (h.appendSlot id next v).object id =
      { h.object id with slots := (h.object id).slots.push v, shape := next } :=
    object_modifyObject_self hpos hle _
  have hs := stepped_appendSlot hl hnew hstep v
  have hnames : (h.appendSlot id next v).names id = h.names id ++ [key] := by
    refine hs.names_of_gain hl ?_
    rw [hobject]
    exact hstep
  have hoffset : ((h.appendSlot id next v).shapeOf id).offsetOf? key = some (h.names id).length := by
    rw [((hl.stepped hs).ordered id).offset_iff, hnames]
    exact List.getElem?_concat_length
  rw [getOwn?, hoffset, hobject, Option.map_some, Object.slot, ← hl.slots_size, Array.getElem?_push_size,
    Option.getD_some]

/-- What is written to a name that is there, or that may be added, is what is then read. -/
theorem getOwn?_setNamed_self (hwritable : h.hasOwnNamed id key = true ∨ (h.object id).extensible = true)
    (v : Value) : (h.setNamed id key v).2.getOwn? id key = some v := by
  rcases setNamed_cases h id key v with ⟨offset, hoffset, heq⟩ | ⟨hnone, hextensible, heq⟩ |
    ⟨hnone, hclosed, -⟩
  · rw [heq]
    exact getOwn?_setSlot hl hpos hle hoffset v
  · have ho := hl.wellFormed.object id
    have hshape := ho.shape_pos hextensible
    have hgrows := (evolves_transition hshape ho.shape_le key hl.wellFormed).1
    rw [heq]
    refine getOwn?_appendSlot (hl.transition hshape ho.shape_le key) hpos ?_ ?_ ?_ v
    · rw [objects_transition]
      exact hle
    · rw [shapeOf, object_transition, (hgrows.shape _ ho.shape_le).offsetOf?_eq]
      exact hnone
    · rw [shapeOf, object_transition]
      exact find?_transition hshape ho.shape_le key
  · rw [hasOwnNamed, hnone, hclosed] at hwritable
    exact absurd hwritable (by decide)

end

end Heap

end InlineCache
