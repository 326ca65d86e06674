import InlineCache.Proofs.Heap.Action

namespace InlineCache

namespace Heap

variable {h h' : Heap} {written : ObjectId → PropertyKey → Prop} {id : ObjectId} {key : PropertyKey}

private theorem names_of_root (hroot : (h.shapeOf id).parent = none) : h.names id = [] := by
  have hadded : h.addedKeys (h.object id).shape = [] :=
    congrArg Lineage.added (Forest.lineage_of_root hroot)
  rw [names, hadded, List.reverse_nil]

private theorem names_of_default (hdefault : h.object id = default) : h.names id = [] := by
  refine names_of_root ?_
  rw [shapeOf, hdefault]
  rfl

theorem Laid.mem_names_iff (hl : h.Laid) (id : ObjectId) (key : PropertyKey) :
    key ∈ h.names id ↔ h.hasOwnNamed id key = true := by
  rw [names, List.mem_reverse]
  exact hl.forest.mem_addedKeys_iff _ key

private theorem Laid.not_mem_names (hl : h.Laid) (hnew : (h.shapeOf id).offsetOf? key = none) :
    key ∉ h.names id := by
  rw [hl.mem_names_iff, hasOwnNamed, hnew]
  exact Bool.false_ne_true

namespace Stepped

variable (hl : h.Laid) (hs : Stepped h h' written)

include hl hs

/-- Where the shape that an object had comes from stays. -/
theorem lineage_eq (id : ObjectId) :
    h'.lineage (h.object id).shape = h.lineage (h.object id).shape :=
  hl.forest.lineage_of_grows hs.forest (hs.evolves hl.wellFormed).1 (hl.wellFormed.object id).shape_le

private theorem offsetOf?_eq (id : ObjectId) (key : PropertyKey) :
    (h'.shape (h.object id).shape).offsetOf? key = (h.shapeOf id).offsetOf? key :=
  ((hs.evolves hl.wellFormed).1.shape _ (hl.wellFormed.object id).shape_le).offsetOf?_eq key

theorem lineage_of_keep (hshape : (h'.object id).shape = (h.object id).shape) :
    h'.lineage (h'.object id).shape = h.lineage (h.object id).shape := by
  rw [hshape, hs.lineage_eq hl]

theorem lineage_of_gain
    (hstep : (h'.shape (h.object id).shape).transitions.find? key = some (h'.object id).shape) :
    h'.lineage (h'.object id).shape = (h.lineage (h.object id).shape).extend key := by
  rw [hs.forest.lineage_of_transition hstep, hs.lineage_eq hl]

private theorem names_of_keep (hshape : (h'.object id).shape = (h.object id).shape) :
    h'.names id = h.names id :=
  congrArg (fun l => l.added.reverse) (hs.lineage_of_keep hl hshape)

theorem names_of_gain
    (hstep : (h'.shape (h.object id).shape).transitions.find? key = some (h'.object id).shape) :
    h'.names id = h.names id ++ [key] :=
  (congrArg (fun l => l.added.reverse) (hs.lineage_of_gain hl hstep)).trans List.reverse_cons

/-- An action leaves the names of an object alone, or adds one that the object did not have. -/
theorem names_cases (id : ObjectId) :
    h'.names id = h.names id ∨
      ∃ key, key ∉ h.names id ∧ h'.names id = h.names id ++ [key] := by
  rcases Nat.lt_or_ge h.objects.size id with hlt | hle
  · rw [names_of_default (object_of_size_lt hlt)]
    rcases Nat.lt_or_ge h'.objects.size id with hlt' | hle'
    · exact .inl (names_of_default (object_of_size_lt hlt'))
    · exact .inl (names_of_root (hs.created id hlt hle').2)
  · cases hs.change id hle with
    | keep hshape _ | write _ _ hshape _ _ => exact .inl (hs.names_of_keep hl hshape)
    | gain key v hnew hstep _ _ =>
      exact .inr ⟨key, hl.not_mem_names hnew, hs.names_of_gain hl hstep⟩

end Stepped

/-- Every object has a slot for each of its names after an action, if it had before. -/
theorem Laid.stepped (hl : h.Laid) (hs : Stepped h h' written) : h'.Laid := by
  have hobject (id : ObjectId) :
      (h'.names id).Nodup ∧ (h'.object id).slots.size = (h'.names id).length := by
    rcases Nat.lt_or_ge h.objects.size id with hlt | hle
    · rcases Nat.lt_or_ge h'.objects.size id with hlt' | hle'
      · have hdefault := object_of_size_lt hlt'
        rw [names_of_default hdefault, hdefault]
        exact ⟨.nil, rfl⟩
      · obtain ⟨hslots, hroot⟩ := hs.created id hlt hle'
        rw [names_of_root hroot, hslots]
        exact ⟨.nil, rfl⟩
    · have hnodup := hl.nodup id
      have hsize := hl.slots_size id
      cases hs.change id hle with
      | keep hshape hslots =>
        rw [hs.names_of_keep hl hshape, hslots]
        exact ⟨hnodup, hsize⟩
      | write offset v hshape hslots _ =>
        rw [hs.names_of_keep hl hshape, hslots, Array.size_setIfInBounds]
        exact ⟨hnodup, hsize⟩
      | gain key v hnew hstep hslots _ =>
        rw [hs.names_of_gain hl hstep, hslots, Array.size_push, hsize, List.length_append]
        refine ⟨List.nodup_append.2 ⟨hnodup, List.nodup_singleton key, fun a ha b hb => ?_⟩, rfl⟩
        rw [List.mem_singleton.1 hb]
        exact fun heq => hl.not_mem_names hnew (heq ▸ ha)
  exact ⟨(hs.evolves hl.wellFormed).2, hs.forest, fun id => (hobject id).1, fun id => (hobject id).2⟩

theorem names_initial (id : ObjectId) : initial.names id = [] := names_of_default (object_initial id)

theorem initial_laid : initial.Laid := by
  refine ⟨initial_wellFormed False, initial_forest, fun id => ?_, fun id => ?_⟩
  · rw [names_initial]
    exact .nil
  · rw [names_initial, object_initial]
    rfl

theorem Laid.run (hl : h.Laid) {actions : List HeapAction} (hobeys : h.Obeys actions) :
    (h.run actions).Laid := by
  induction actions generalizing h with
  | nil => exact hl
  | cons a rest ih => exact ih (hl.stepped (stepped_act hl hobeys.1)) hobeys.2

/-- How an object is laid out. -/
structure LaysOut (h : Heap) (id : ObjectId) : Prop where
  slots_size : (h.object id).slots.size = (h.shapeOf id).propertyCount
  /-- The names are in the order in which they were added, and each of them was added once. -/
  nodup : (h.names id).Nodup
  names_length : (h.names id).length = (h.shapeOf id).propertyCount
  offset_iff : ∀ key offset,
    (h.shapeOf id).offsetOf? key = some offset ↔ (h.names id)[offset]? = some key
  /-- A property that is there is read from a slot that is there. -/
  getOwn?_eq : ∀ key offset, (h.shapeOf id).offsetOf? key = some offset →
    ∃ v, (h.object id).slots[offset]? = some v ∧ h.getOwn? id key = some v
  present_iff : ∀ key, (h.getOwn? id key).isSome = h.hasOwnNamed id key

theorem Laid.lt_slots_size (hl : h.Laid) {offset : Nat}
    (hoffset : (h.shapeOf id).offsetOf? key = some offset) : offset < (h.object id).slots.size := by
  rw [hl.slots_size]
  rw [(hl.ordered id).offset_iff] at hoffset
  exact (List.getElem?_eq_some_iff.1 hoffset).1

theorem isSome_getOwn? (h : Heap) (id : ObjectId) (key : PropertyKey) :
    (h.getOwn? id key).isSome = h.hasOwnNamed id key := by
  rw [getOwn?, hasOwnNamed, Option.isSome_map]

private theorem Laid.laysOut (hl : h.Laid) (id : ObjectId) : h.LaysOut id where
  slots_size := (hl.slots_size id).trans (hl.ordered id).count.symm
  nodup := hl.nodup id
  names_length := (hl.ordered id).count.symm
  offset_iff := (hl.ordered id).offset_iff
  getOwn?_eq key offset hoffset := by
    have hslot := Array.getElem?_eq_getElem (hl.lt_slots_size hoffset)
    refine ⟨_, hslot, ?_⟩
    rw [getOwn?, hoffset, Option.map_some, Object.slot, hslot, Option.getD_some]
  present_iff := h.isSome_getOwn? id

private theorem getOwn?_congr (hoffset : (h'.shapeOf id).offsetOf? key = (h.shapeOf id).offsetOf? key)
    (hslots : ∀ offset, (h.shapeOf id).offsetOf? key = some offset →
      (h'.object id).slots[offset]? = (h.object id).slots[offset]?) :
    h'.getOwn? id key = h.getOwn? id key := by
  rw [getOwn?, getOwn?, hoffset]
  cases hkey : (h.shapeOf id).offsetOf? key with
  | none => rfl
  | some offset => rw [Option.map_some, Option.map_some, Object.slot, Object.slot, hslots offset hkey]

/-- An action that is not meant to write a name leaves its value alone. -/
theorem Stepped.getOwn?_eq (hl : h.Laid) (hs : Stepped h h' written) (hid : id ≤ h.objects.size)
    (hnot : ¬ written id key) : h'.getOwn? id key = h.getOwn? id key := by
  have hold := hs.offsetOf?_eq hl id key
  cases hs.change id hid with
  | keep hshape hslots =>
    refine getOwn?_congr (by rw [shapeOf, hshape, hold]) fun offset _ => ?_
    rw [hslots]
  | write place v hshape hslots hwritten =>
    refine getOwn?_congr (by rw [shapeOf, hshape, hold]) fun offset hoffset => ?_
    have hne : place ≠ offset := fun heq => hnot (hwritten key (heq ▸ hoffset))
    rw [hslots, Array.getElem?_setIfInBounds_ne hne]
  | gain name v hnew hstep hslots hwritten =>
    have hne : key ≠ name := fun heq => hnot (heq ▸ hwritten)
    have hsame := (hs.forest.offsetOf?_of_ne hstep hne).trans hold
    refine getOwn?_congr hsame fun offset hoffset => ?_
    rw [hslots, Array.getElem?_push_lt (hl.lt_slots_size hoffset),
      Array.getElem?_eq_getElem (hl.lt_slots_size hoffset)]

/-- Whatever is done with the objects of a heap, each of them has as many slots as its shape has names, and
each name has the slot of its place among them. A name that is added is the last one, and no write of one
name changes the value of another. -/
theorem objects_lay_out {actions : List HeapAction} (hobeys : initial.Obeys actions) :
    (∀ id, (initial.run actions).LaysOut id) ∧
      ∀ a, (initial.run actions).Allows a →
        (∀ id, ((initial.run actions).act a).names id = (initial.run actions).names id ∨
          ∃ key, key ∉ (initial.run actions).names id ∧
            ((initial.run actions).act a).names id = (initial.run actions).names id ++ [key]) ∧
        ∀ id ≤ (initial.run actions).objects.size, ∀ key, ¬ (initial.run actions).Writes id key a →
          ((initial.run actions).act a).getOwn? id key = (initial.run actions).getOwn? id key := by
  have hl := initial_laid.run hobeys
  refine ⟨hl.laysOut, fun a ha => ?_⟩
  have hs := stepped_act hl ha
  exact ⟨hs.names_cases hl, fun id hid key hnot => hs.getOwn?_eq hl hid hnot⟩

/-- Two objects of one layout, of which the second one gains its slot by a stub; a slot that is not there is
written as well. -/
def slotActions : List HeapAction :=
  [.create .plain plainGroup false rootShape #[] none, .setNamed 1 "x" (.int32 1),
    .create .array arrayGroup false rootShape #[.null] none,
    .addSlotStub (.addSlot arrayGroup 1 2) (.binary (.object 2) (.int32 7)), .setSlot 2 5 .null]

theorem stub_slot_lays_out :
    (initial.run slotActions).LaysOut 2 ∧
      ((initial.run slotActions).act (.setNamed 2 "y" .null)).getOwn? 2 "x" = some (.int32 7) := by
  have hobeys : initial.Obeys slotActions :=
    ⟨⟨by decide, by decide, by decide, rfl⟩, trivial, ⟨by decide, by decide, by decide, rfl⟩,
      ⟨"x", rfl, rfl⟩, trivial, trivial⟩
  obtain ⟨hlaid, hframe⟩ := objects_lay_out hobeys
  have hother : ¬ (initial.run slotActions).Writes 2 "x" (.setNamed 2 "y" .null) :=
    fun hwrites => absurd hwrites.2 (by decide)
  exact ⟨hlaid 2, ((hframe (.setNamed 2 "y" .null) trivial).2 2 (by decide) "x" hother).trans rfl⟩

end Heap

end InlineCache
