import InlineCache.Cache.TypeChain

namespace InlineCache

/-- A group without the recorded types. -/
def Group.seen (g : Group) : Group := { g with properties := .empty }

@[simp] theorem Group.seen_widenProperty (g : Group) (key : PropertyKey) (f : TypeSet → TypeSet) :
    (g.widenProperty key f).seen = g.seen := by
  unfold widenProperty
  split <;> rfl

namespace Heap

/-- A heap without the recorded types. The operations read nothing else, and a write records types on
the side, so two heaps that look the same are as good as equal to every operation. -/
def seen (h : Heap) : Heap := { h with groups := ⟨h.groups.rows.map Group.seen⟩ }

@[simp] theorem objects_seen (h : Heap) : h.seen.objects = h.objects := rfl

@[simp] theorem shapes_seen (h : Heap) : h.seen.shapes = h.shapes := rfl

@[simp] theorem object_seen (h : Heap) (id : ObjectId) : h.seen.object id = h.object id := rfl

@[simp] theorem shape_seen (h : Heap) (id : ShapeId) : h.seen.shape id = h.shape id := rfl

@[simp] theorem size_groups_seen (h : Heap) : h.seen.groups.size = h.groups.size := by
  simp [seen, Table.size]

@[simp] theorem group_seen (h : Heap) (id : GroupId) : h.seen.group id = (h.group id).seen := by
  cases id with
  | zero => rfl
  | succ id =>
    simp only [group, Table.get, Table.get?, seen, Array.getElem?_map]
    cases h.groups.rows[id]? <;> rfl

@[simp] theorem groupOf_seen (h : Heap) (id : ObjectId) : h.seen.groupOf id = (h.groupOf id).seen :=
  group_seen h _

private theorem seen_modifyGroup (h : Heap) (id : GroupId) {f : Group → Group}
    (hf : ∀ g, (f g).seen = g.seen) : (h.modifyGroup id f).seen = h.seen := by
  cases id with
  | zero => rfl
  | succ id =>
    simp only [seen, modifyGroup, Table.modify, mk.injEq, Table.mk.injEq, true_and, and_true]
    apply Array.ext_getElem?
    intro i
    simp only [Array.getElem?_map, Array.getElem?_modify]
    split
    · cases h.groups.rows[i]? <;> simp [hf]
    · rfl

@[simp] theorem seen_addPropertyType (h : Heap) (group : GroupId) (key : PropertyKey) (v : Value) :
    (h.addPropertyType group key v).seen = h.seen :=
  seen_modifyGroup h group fun g => g.seen_widenProperty key _

/-- The objects, the shapes and the groups of heaps that look the same. -/
theorem objects_eq_of_seen {h h' : Heap} (hs : h.seen = h'.seen) : h.objects = h'.objects := by
  rw [← objects_seen h, hs, objects_seen]

theorem shapes_eq_of_seen {h h' : Heap} (hs : h.seen = h'.seen) : h.shapes = h'.shapes := by
  rw [← shapes_seen h, hs, shapes_seen]

theorem object_eq_of_seen {h h' : Heap} (hs : h.seen = h'.seen) (id : ObjectId) :
    h.object id = h'.object id := by
  rw [object, object, objects_eq_of_seen hs]

theorem shape_eq_of_seen {h h' : Heap} (hs : h.seen = h'.seen) (id : ShapeId) :
    h.shape id = h'.shape id := by
  rw [shape, shape, shapes_eq_of_seen hs]

theorem group_seen_eq_of_seen {h h' : Heap} (hs : h.seen = h'.seen) (id : GroupId) :
    (h.group id).seen = (h'.group id).seen := by
  rw [← group_seen, ← group_seen, hs]

end Heap

namespace TypeChain

/-- Scripts see nothing of a write being recorded. -/
theorem seen_recordWrite {t t' : TypeChain} {h h' : Heap} {env env' : AttachEnv} {group : GroupId}
    {key : PropertyKey} {v : Value} {accepted : Bool}
    (hr : t.recordWrite h env group key v = (accepted, t', h', env')) : h'.seen = h.seen := by
  unfold recordWrite at hr
  split at hr
  · cases hr
    rfl
  · dsimp only at hr
    split at hr
    · cases hr
      rfl
    · simp only [Prod.mk.injEq] at hr
      obtain ⟨-, -, rfl, -⟩ := hr
      split
      · rw [Heap.seen_modifyGroup _ _ fun g => g.seen_widenProperty key _, Heap.seen_addPropertyType]
      · exact Heap.seen_addPropertyType h group key v

end TypeChain

end InlineCache
