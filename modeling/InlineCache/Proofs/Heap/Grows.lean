import InlineCache.Proofs.Heap.Seen

namespace InlineCache

/-- What an object keeps for good. -/
structure Object.SameKind (o o' : Object) : Prop where
  cls : o'.cls = o.cls
  group : o'.group = o.group
  isCallable : o'.isCallable = o.isCallable

theorem Object.SameKind.refl (o : Object) : o.SameKind o := ⟨rfl, rfl, rfl⟩

theorem Object.SameKind.trans {o o' o'' : Object} (h : o.SameKind o') (h' : o'.SameKind o'') :
    o.SameKind o'' :=
  ⟨h'.cls.trans h.cls, h'.group.trans h.group, h'.isCallable.trans h.isCallable⟩

/-- What a shape keeps for good. A shape may lead to more and more shapes, but what it leads to for a
name never changes. -/
structure Shape.Extends (s s' : Shape) : Prop where
  offsets : s'.offsets = s.offsets
  parent : s'.parent = s.parent
  key : s'.key = s.key
  transition : ∀ key next, s.transitions.find? key = some next →
    s'.transitions.find? key = some next

theorem Shape.Extends.refl (s : Shape) : s.Extends s := ⟨rfl, rfl, rfl, fun _ _ h => h⟩

theorem Shape.Extends.trans {s s' s'' : Shape} (h : s.Extends s') (h' : s'.Extends s'') :
    s.Extends s'' :=
  ⟨h'.offsets.trans h.offsets, h'.parent.trans h.parent, h'.key.trans h.key,
    fun key next hfind => h'.transition key next (h.transition key next hfind)⟩

theorem Shape.Extends.offsetOf?_eq {s s' : Shape} (h : s.Extends s') (key : PropertyKey) :
    s'.offsetOf? key = s.offsetOf? key := by
  rw [offsetOf?, offsetOf?, h.offsets]

/-- An object in its place in a heap: its shape and its group are there. With `classed`, it is of the
class of its group. -/
structure Object.Placed (classed : Prop) (h : Heap) (o : Object) : Prop where
  shape_le : o.shape ≤ h.shapes.size
  shape_pos : o.extensible = true → 0 < o.shape
  group_le : o.group ≤ h.groups.size
  cls_eq : classed → o.cls = (h.group o.group).cls

namespace Heap

/-- What is right with every heap. With `classed`, each object is of the class of its group as well. -/
structure WellFormed (classed : Prop) (h : Heap) : Prop where
  root_le : rootShape ≤ h.shapes.size
  iteratorGroup_le : iteratorGroup ≤ h.groups.size
  iteratorGroup_cls : (h.group iteratorGroup).cls = .arrayIterator
  object : ∀ id, (h.object id).Placed classed h
  transition : ∀ id key next, (h.shape id).transitions.find? key = some next →
    0 < next ∧ next ≤ h.shapes.size
  /-- A shape is the one that its parent leads to. -/
  child : ∀ id parent key, (h.shape id).parent = some parent → (h.shape id).key = some key →
    (h.shape parent).transitions.find? key = some id

/-- One heap comes after another. -/
structure Grows (h h' : Heap) : Prop where
  objects_le : h.objects.size ≤ h'.objects.size
  groups_le : h.groups.size ≤ h'.groups.size
  shapes_le : h.shapes.size ≤ h'.shapes.size
  object : ∀ id ≤ h.objects.size, (h.object id).SameKind (h'.object id)
  group : ∀ id ≤ h.groups.size, (h'.group id).cls = (h.group id).cls
  shape : ∀ id ≤ h.shapes.size, (h.shape id).Extends (h'.shape id)

/-- From a heap that is well formed comes one that grew from it and is well formed. -/
def Evolves (classed : Prop) (h h' : Heap) : Prop :=
  h.WellFormed classed → h.Grows h' ∧ h'.WellFormed classed

theorem object_of_size_lt {h : Heap} {id : ObjectId} (hlt : h.objects.size < id) :
    h.object id = default := Table.get_of_size_lt _ hlt

/-- What is no default object is an object of the heap. -/
theorem there_of_ne_default {h : Heap} {id : ObjectId} (hne : h.object id ≠ default) :
    0 < id ∧ id ≤ h.objects.size := by
  constructor
  · refine Nat.pos_of_ne_zero fun hzero => ?_
    subst hzero
    exact hne rfl
  · exact Nat.le_of_not_lt fun hlt => hne (object_of_size_lt hlt)

/-- An object that may gain properties is an object of the heap. -/
theorem there_of_extensible {h : Heap} {id : ObjectId} (hextensible : (h.object id).extensible = true) :
    0 < id ∧ id ≤ h.objects.size :=
  there_of_ne_default fun heq => by
    rw [heq] at hextensible
    cases hextensible

section

variable {classed : Prop} {h h' h'' : Heap}

theorem Grows.refl (h : Heap) : h.Grows h :=
  ⟨Nat.le_refl _, Nat.le_refl _, Nat.le_refl _, fun _ _ => .refl _, fun _ _ => rfl, fun _ _ => .refl _⟩

theorem Grows.trans (hg : h.Grows h') (hg' : h'.Grows h'') : h.Grows h'' where
  objects_le := Nat.le_trans hg.objects_le hg'.objects_le
  groups_le := Nat.le_trans hg.groups_le hg'.groups_le
  shapes_le := Nat.le_trans hg.shapes_le hg'.shapes_le
  object id hid := (hg.object id hid).trans (hg'.object id (Nat.le_trans hid hg.objects_le))
  group id hid := (hg'.group id (Nat.le_trans hid hg.groups_le)).trans (hg.group id hid)
  shape id hid := (hg.shape id hid).trans (hg'.shape id (Nat.le_trans hid hg.shapes_le))

theorem Evolves.refl (classed : Prop) (h : Heap) : h.Evolves classed h := fun hw => ⟨.refl h, hw⟩

theorem Evolves.trans (he : h.Evolves classed h') (he' : h'.Evolves classed h'') :
    h.Evolves classed h'' := by
  intro hw
  obtain ⟨hgrows, hw'⟩ := he hw
  obtain ⟨hgrows', hw''⟩ := he' hw'
  exact ⟨hgrows.trans hgrows', hw''⟩

private theorem cls_eq_of_seen (hs : h'.seen = h.seen) (id : GroupId) :
    (h'.group id).cls = (h.group id).cls := by
  have hgroup := congrArg Group.cls (group_seen_eq_of_seen hs id)
  exact hgroup

private theorem size_groups_eq_of_seen (hs : h'.seen = h.seen) : h'.groups.size = h.groups.size := by
  rw [← size_groups_seen h', hs, size_groups_seen]

/-- Recorded types are no matter of growing. -/
theorem evolves_of_seen (hs : h'.seen = h.seen) : h.Evolves classed h' := by
  intro hw
  have hobjects := objects_eq_of_seen hs
  have hshapes := shapes_eq_of_seen hs
  have hgroups := size_groups_eq_of_seen hs
  constructor
  · exact
      { objects_le := Nat.le_of_eq (by rw [hobjects])
        groups_le := Nat.le_of_eq hgroups.symm
        shapes_le := Nat.le_of_eq (by rw [hshapes])
        object := fun id _ => by rw [object_eq_of_seen hs]; exact .refl _
        group := fun id _ => cls_eq_of_seen hs id
        shape := fun id _ => by rw [shape_eq_of_seen hs]; exact .refl _ }
  · exact
      { root_le := by rw [hshapes]; exact hw.root_le
        iteratorGroup_le := by rw [hgroups]; exact hw.iteratorGroup_le
        iteratorGroup_cls := by rw [cls_eq_of_seen hs]; exact hw.iteratorGroup_cls
        object := fun id => by
          have ho := hw.object id
          rw [object_eq_of_seen hs]
          exact ⟨by rw [hshapes]; exact ho.shape_le, ho.shape_pos, by rw [hgroups]; exact ho.group_le,
            fun hc => by rw [cls_eq_of_seen hs]; exact ho.cls_eq hc⟩
        transition := fun id => by
          rw [shape_eq_of_seen hs, hshapes]
          exact hw.transition id
        child := fun id parent key => by
          rw [shape_eq_of_seen hs, shape_eq_of_seen hs]
          exact hw.child id parent key }

theorem evolves_modifyObject (id : ObjectId) {f : Object → Object}
    (hkind : ∀ o : Object, o.SameKind (f o))
    (hplaced : h.WellFormed classed → ∀ o : Object, o.Placed classed h → (f o).Placed classed h) :
    h.Evolves classed (h.modifyObject id f) := by
  intro hw
  constructor
  · exact
      { Grows.refl h with
        objects_le := Nat.le_of_eq (Table.size_modify _ _ _).symm
        object := fun other _ => by
          rcases h.objects.get_modify_cases id f other with heq | heq <;>
            rw [object, object, modifyObject, heq]
          · exact .refl _
          · exact hkind _ }
  · exact
      { hw with
        object := fun other => by
          have hold := hw.object other
          have hnew : (f (h.object other)).Placed classed h := hplaced hw _ hold
          rcases h.objects.get_modify_cases id f other with heq | heq <;>
            rw [object, modifyObject, heq]
          · exact ⟨hold.1, hold.2, hold.3, hold.4⟩
          · exact ⟨hnew.1, hnew.2, hnew.3, hnew.4⟩ }

theorem evolves_addObject {o : Object} (ho : h.WellFormed classed → o.Placed classed h) :
    h.Evolves classed (h.addObject o).2 := by
  intro hw
  constructor
  · exact
      { Grows.refl h with
        objects_le := by simp [addObject]
        object := fun id hid => by
          rw [object, object, addObject, Table.get_add_of_le _ _ hid]
          exact .refl _ }
  · exact
      { hw with
        object := fun id => by
          have hold := hw.object id
          have hnew := ho hw
          rcases h.objects.get_add_cases o id with heq | ⟨-, heq⟩ <;> rw [object, addObject, heq]
          · exact ⟨hold.1, hold.2, hold.3, hold.4⟩
          · exact ⟨hnew.1, hnew.2, hnew.3, hnew.4⟩ }

private theorem evolves_groups {groups : Table Group} (hle : h.groups.size ≤ groups.size)
    (hcls : ∀ id ≤ h.groups.size, (groups.get id).cls = (h.group id).cls) :
    h.Evolves classed { h with groups := groups } := by
  intro hw
  constructor
  · exact { Grows.refl h with groups_le := hle, group := hcls }
  · exact
      { hw with
        iteratorGroup_le := Nat.le_trans hw.iteratorGroup_le hle
        iteratorGroup_cls := (hcls _ hw.iteratorGroup_le).trans hw.iteratorGroup_cls
        object := fun id =>
          have ho := hw.object id
          ⟨ho.shape_le, ho.shape_pos, Nat.le_trans ho.group_le hle,
            fun hc => (ho.cls_eq hc).trans (hcls _ ho.group_le).symm⟩ }

theorem evolves_addGroup (classed : Prop) (h : Heap) (g : Group) :
    h.Evolves classed (h.addGroup g).2 :=
  evolves_groups (by simp) fun id hid => by rw [Table.get_add_of_le _ _ hid, group]

theorem evolves_modifyGroup (classed : Prop) (h : Heap) (id : GroupId) {f : Group → Group}
    (hcls : ∀ g, (f g).cls = g.cls) : h.Evolves classed (h.modifyGroup id f) := by
  refine evolves_groups (Nat.le_of_eq (Table.size_modify _ _ _).symm) fun other _ => ?_
  rcases h.groups.get_modify_cases id f other with heq | heq <;> rw [heq]
  · rfl
  · exact hcls _

theorem le_size_of_transition {id next : ShapeId} {key : PropertyKey}
    (hfind : (h.shape id).transitions.find? key = some next) : id ≤ h.shapes.size := by
  refine Nat.le_of_not_lt fun hlt => ?_
  rw [shape, Table.get_of_size_lt _ hlt] at hfind
  cases hfind

/-- A step that was taken before leads to the same shape again, and makes none. -/
theorem transition_of_find? {id next : ShapeId} {key : PropertyKey}
    (hfind : (h.shape id).transitions.find? key = some next) : h.transition id key = (next, h) := by
  simp only [transition, hfind]

/-- A step that was not taken before makes a shape. -/
theorem transition_of_find?_none {id : ShapeId} {key : PropertyKey}
    (hnone : (h.shape id).transitions.find? key = none) :
    (h.transition id key).1 = h.shapes.next ∧
      (h.transition id key).2.shapes.size = h.shapes.size + 1 := by
  simp only [transition, hnone, Table.size_add, Table.size_modify, and_self]

theorem objects_transition (h : Heap) (id : ShapeId) (key : PropertyKey) :
    (h.transition id key).2.objects = h.objects := by
  unfold transition
  split <;> rfl

theorem groups_transition (h : Heap) (id : ShapeId) (key : PropertyKey) :
    (h.transition id key).2.groups = h.groups := by
  unfold transition
  split <;> rfl

theorem evolves_addRoot (classed : Prop) (h : Heap) : h.Evolves classed h.addRoot.2 := by
  intro hw
  have hle : h.shapes.size ≤ h.addRoot.2.shapes.size := by simp [addRoot]
  have hold (id : ShapeId) (hid : id ≤ h.shapes.size) : h.addRoot.2.shape id = h.shape id :=
    Table.get_add_of_le _ _ hid
  have hcases (id : ShapeId) : h.addRoot.2.shape id = h.shape id ∨ h.addRoot.2.shape id = .root :=
    (Table.get_add_cases h.shapes .root id).imp_right fun hnew => hnew.2
  constructor
  · exact
      { Grows.refl h with
        shapes_le := hle
        shape := fun id hid => by rw [hold id hid]; exact .refl _ }
  · refine
      { hw with
        root_le := Nat.le_trans hw.root_le hle
        object := fun id =>
          have ho := hw.object id
          ⟨Nat.le_trans ho.shape_le hle, ho.shape_pos, ho.group_le, ho.cls_eq⟩
        transition := fun id key next hfind => ?_
        child := fun id parent key hparent hkey => ?_ }
    · rcases hcases id with heq | heq <;> rw [heq] at hfind
      · obtain ⟨hpos, hnext⟩ := hw.transition id key next hfind
        exact ⟨hpos, Nat.le_trans hnext hle⟩
      · cases hfind
    · rcases hcases id with heq | heq <;> rw [heq] at hparent hkey
      · have hchild := hw.child id parent key hparent hkey
        rw [hold parent (le_size_of_transition hchild)]
        exact hchild
      · cases hparent

/-- A shape after a step to one that was not made before: the new one, the one the step was taken from,
or any other, which stays. -/
theorem shape_transition_cases {id : ShapeId} {key : PropertyKey}
    (hnone : (h.shape id).transitions.find? key = none) (hpos : 0 < id) (hle : id ≤ h.shapes.size)
    (k : ShapeId) :
    (k = h.shapes.next ∧ (h.transition id key).2.shape k = (h.shape id).child id key) ∨
    (k ≠ h.shapes.next ∧ k = id ∧ (h.transition id key).2.shape k =
      { h.shape id with transitions := (h.shape id).transitions.set key h.shapes.next }) ∨
    (k ≠ h.shapes.next ∧ k ≠ id ∧ (h.transition id key).2.shape k = h.shape k) := by
  obtain ⟨t, ht⟩ : ∃ t, h.shapes.modify id (fun s =>
      { s with transitions := s.transitions.set key h.shapes.next }) = t := ⟨_, rfl⟩
  have hshape : (h.transition id key).2.shape k = (t.add ((h.shape id).child id key)).get k := by
    simp only [transition, hnone, ht]
    rfl
  have hnext : t.next = h.shapes.next := by
    rw [← ht]
    exact congrArg (· + 1) (Table.size_modify _ _ _)
  rw [hshape, ← hnext]
  rcases Table.get_add_cases t ((h.shape id).child id key) k with heq | ⟨hk, heq⟩
  · by_cases hk : k = t.next
    · exact .inl ⟨hk, by rw [hk, Table.get_add_next]⟩
    · rw [heq, hnext, ← ht]
      rw [hnext] at hk
      by_cases hid : k = id
      · exact .inr (.inl ⟨hk, hid, by rw [hid, Table.get_modify_self _ _ hpos hle]; rfl⟩)
      · exact .inr (.inr ⟨hk, hid, Table.get_modify_of_ne _ _ hid⟩)
  · exact .inl ⟨hk, heq⟩

/-- The shapes of before lead to the shapes that they led to. -/
theorem extends_transition {id k : ShapeId} {key : PropertyKey}
    (hnone : (h.shape id).transitions.find? key = none) (hpos : 0 < id) (hle : id ≤ h.shapes.size)
    (hk : k ≤ h.shapes.size) : (h.shape k).Extends ((h.transition id key).2.shape k) := by
  rcases shape_transition_cases hnone hpos hle k with ⟨hnew, -⟩ | ⟨-, rfl, heq⟩ | ⟨-, -, heq⟩
  · exact absurd hnew (Nat.ne_of_lt (Nat.lt_succ_of_le hk))
  · rw [heq]
    refine ⟨rfl, rfl, rfl, fun other next hother => ?_⟩
    have hother' : other ≠ key := fun h => by
      rw [h, hnone] at hother
      cases hother
    exact (Assoc.find?_set_of_ne _ _ hother').trans hother
  · rw [heq]
    exact .refl _

/-- What shapes lead to after such a step is what they led to before, but for the step itself. -/
theorem find?_transition_cases {id k next : ShapeId} {key other : PropertyKey}
    (hnone : (h.shape id).transitions.find? key = none) (hpos : 0 < id) (hle : id ≤ h.shapes.size)
    (hfind : ((h.transition id key).2.shape k).transitions.find? other = some next) :
    (h.shape k).transitions.find? other = some next ∨
      k = id ∧ other = key ∧ next = h.shapes.next := by
  rcases shape_transition_cases hnone hpos hle k with ⟨-, heq⟩ | ⟨-, rfl, heq⟩ | ⟨-, -, heq⟩ <;>
    rw [heq] at hfind
  · cases hfind
  · by_cases hother : other = key
    · subst hother
      have hnext := (Assoc.find?_set_self _ _ _).symm.trans hfind
      exact .inr ⟨rfl, rfl, (Option.some.inj hnext).symm⟩
    · exact .inl ((Assoc.find?_set_of_ne _ _ hother).symm.trans hfind)
  · exact .inl hfind

/-- A step from a shape to the one that adds a name. -/
theorem evolves_transition {id : ShapeId} (hpos : 0 < id) (hle : id ≤ h.shapes.size)
    (key : PropertyKey) : h.Evolves classed (h.transition id key).2 := by
  cases hfind : (h.shape id).transitions.find? key with
  | some next =>
    rw [transition_of_find? hfind]
    exact .refl classed h
  | none =>
    intro hw
    have hobjects := objects_transition h id key
    have hgroups := groups_transition h id key
    have hsize := (transition_of_find?_none hfind).2
    have hcases := shape_transition_cases hfind hpos hle
    have hne {k : ShapeId} (hk : k ≤ h.shapes.size) : k ≠ h.shapes.next :=
      Nat.ne_of_lt (Nat.lt_succ_of_le hk)
    have hextends (k : ShapeId) (hk : k ≤ h.shapes.size) :
        (h.shape k).Extends ((h.transition id key).2.shape k) := extends_transition hfind hpos hle hk
    constructor
    · exact
        { objects_le := Nat.le_of_eq (by rw [hobjects])
          groups_le := Nat.le_of_eq (by rw [hgroups])
          shapes_le := by rw [hsize]; exact Nat.le_succ _
          object := fun k _ => by rw [object, object, hobjects]; exact .refl _
          group := fun k _ => by rw [group, group, hgroups]
          shape := hextends }
    · refine
        { root_le := by rw [hsize]; exact Nat.le_succ_of_le hw.root_le
          iteratorGroup_le := by rw [hgroups]; exact hw.iteratorGroup_le
          iteratorGroup_cls := by rw [group, hgroups]; exact hw.iteratorGroup_cls
          object := fun k => ?_
          transition := fun k other next hother => ?_
          child := fun k parent other hparent hkey => ?_ }
      · have ho := hw.object k
        rw [object, hobjects]
        exact ⟨by rw [hsize]; exact Nat.le_succ_of_le ho.shape_le, ho.shape_pos,
          by rw [hgroups]; exact ho.group_le, fun hc => by rw [group, hgroups]; exact ho.cls_eq hc⟩
      · rw [hsize]
        rcases find?_transition_cases hfind hpos hle hother with hold | ⟨-, -, rfl⟩
        · exact (hw.transition k other next hold).imp_right Nat.le_succ_of_le
        · exact ⟨Nat.succ_pos _, Nat.le_refl _⟩
      · -- the new shape is what its parent now leads to, and no older shape was
        have hlift (hold : (h.shape k).parent = some parent) (hkey : (h.shape k).key = some other) :
            ((h.transition id key).2.shape parent).transitions.find? other = some k := by
          have hchild := hw.child k parent other hold hkey
          exact (hextends parent (le_size_of_transition hchild)).transition other k hchild
        rcases hcases k with ⟨rfl, heq⟩ | ⟨-, rfl, heq⟩ | ⟨-, -, heq⟩ <;> rw [heq] at hparent hkey
        · cases hparent
          cases hkey
          rcases hcases id with ⟨hnew, -⟩ | ⟨-, -, heq⟩ | ⟨-, hid, -⟩
          · exact absurd hnew (hne hle)
          · rw [heq]
            exact Assoc.find?_set_self _ _ _
          · exact absurd rfl hid
        · exact hlift hparent hkey
        · exact hlift hparent hkey

end

end Heap

end InlineCache
