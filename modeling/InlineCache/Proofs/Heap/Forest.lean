import InlineCache.Proofs.Heap.Working

namespace InlineCache

/-- A shape as it is when it is made, before it leads to others. -/
def Shape.bare (s : Shape) : Shape := { s with transitions := .empty }

/-- What a shape leads to is no matter of what is made from it. -/
theorem Shape.child_congr {s s' : Shape} (h : s.bare = s'.bare) (id : ShapeId) (key : PropertyKey) :
    s.child id key = s'.child id key := by
  have hoffsets : s.bare.offsets = s'.bare.offsets := congrArg offsets h
  change s.offsets = s'.offsets at hoffsets
  rw [child, child, propertyCount, propertyCount, hoffsets]

/-- The slots of a shape are those of some names, one after the other. -/
structure Shape.Ordered (s : Shape) (names : List PropertyKey) : Prop where
  count : s.propertyCount = names.length
  offset_iff : ∀ key offset, s.offsetOf? key = some offset ↔ names[offset]? = some key

private theorem Shape.ordered_of_empty {s : Shape} (hoffsets : s.offsets = .empty) : s.Ordered [] := by
  constructor
  · rw [propertyCount, hoffsets]
    rfl
  · simp [offsetOf?, hoffsets]

/-- One name more has the next slot. -/
theorem Shape.Ordered.add {s s' : Shape} {names : List PropertyKey} {key : PropertyKey}
    (hs : s.Ordered names) (hoffsets : s'.offsets = s.offsets.set key s.propertyCount)
    (hnew : s.offsetOf? key = none) : s'.Ordered (names ++ [key]) := by
  constructor
  · rw [propertyCount, hoffsets, Assoc.size_set_of_find?_none hnew, List.length_append]
    exact congrArg (· + 1) hs.count
  · intro other offset
    rw [offsetOf?, hoffsets, hs.count, List.getElem?_append]
    by_cases hkey : other = key
    · subst hkey
      have hnone : names[offset]? ≠ some other := fun h => by
        rw [← hs.offset_iff, hnew] at h
        cases h
      rw [Assoc.find?_set_self]
      split
      · next hlt => simp [hnone, Nat.ne_of_gt hlt]
      · next hlt =>
        simp [List.getElem?_singleton]
        omega
    · rw [Assoc.find?_set_of_ne _ _ hkey, ← offsetOf?, hs.offset_iff]
      split
      · rfl
      · next hlt =>
        have hnone : names[offset]? = none := List.getElem?_eq_none (Nat.le_of_not_lt hlt)
        simp [hnone, List.getElem?_singleton, Ne.symm hkey]

/-- Where a shape comes from: a root, and the names that were added since, the last one first. -/
@[ext]
structure Lineage where
  root : ShapeId
  added : List PropertyKey
deriving DecidableEq

/-- One name more. -/
def Lineage.extend (l : Lineage) (key : PropertyKey) : Lineage := ⟨l.root, key :: l.added⟩

namespace Heap

/-- Every shape is a root or made from an older one, and is led to by the one that it was made from. So
the names on the way to a shape, with the root at its start, belong to no other shape. -/
structure Forest (h : Heap) : Prop where
  origin : ∀ id, (h.shape id).bare = .root ∨ ∃ parent key, parent < id ∧
    (h.shape parent).transitions.find? key = some id ∧
    (h.shape id).bare = (h.shape parent).child parent key
  parent_eq : ∀ parent key id, (h.shape parent).transitions.find? key = some id →
    (h.shape id).parent = some parent ∧ (h.shape id).key = some key

/-- The root that a shape comes from. A shape is made from one that is older. -/
def rootOf (h : Heap) (id : ShapeId) : ShapeId :=
  match (h.shape id).parent with
  | some parent => if parent < id then rootOf h parent else id
  | none => id
termination_by id

def lineage (h : Heap) (id : ShapeId) : Lineage := ⟨h.rootOf id, h.addedKeys id⟩

variable {h h' : Heap}

namespace Forest

/-- The induction from the roots upwards. -/
theorem induct (hf : h.Forest) {P : ShapeId → Prop}
    (root : ∀ id, (h.shape id).bare = .root → P id)
    (child : ∀ parent key id, (h.shape parent).transitions.find? key = some id → P parent → P id)
    (id : ShapeId) : P id := by
  induction id using Nat.strongRecOn with
  | ind id ih =>
    rcases hf.origin id with hroot | ⟨parent, key, hlt, hfind, -⟩
    · exact root id hroot
    · exact child parent key id hfind (ih parent hlt)

/-- What is led to is younger, and made for that. -/
theorem made_of_transition (hf : h.Forest) {parent id : ShapeId} {key : PropertyKey}
    (hfind : (h.shape parent).transitions.find? key = some id) :
    parent < id ∧ (h.shape id).bare = (h.shape parent).child parent key := by
  obtain ⟨hparent, hkey⟩ := hf.parent_eq parent key id hfind
  rcases hf.origin id with hroot | ⟨parent', key', hlt, -, hbare⟩
  · have hnone : (h.shape id).parent = none := congrArg Shape.parent hroot
    rw [hnone] at hparent
    cases hparent
  · have hparent' : (h.shape id).parent = some parent' := congrArg Shape.parent hbare
    have hkey' : (h.shape id).key = some key' := congrArg Shape.key hbare
    rw [hparent'] at hparent
    rw [hkey'] at hkey
    cases hparent
    cases hkey
    exact ⟨hlt, hbare⟩

theorem lineage_of_root {id : ShapeId} (hroot : (h.shape id).parent = none) :
    h.lineage id = ⟨id, []⟩ := by
  rw [lineage, rootOf, addedKeys]
  simp only [hroot]

/-- The shape that another one leads to for a name comes from where that one comes from, and has the name
in addition. -/
theorem lineage_of_transition (hf : h.Forest) {parent id : ShapeId} {key : PropertyKey}
    (hfind : (h.shape parent).transitions.find? key = some id) :
    h.lineage id = (h.lineage parent).extend key := by
  obtain ⟨hparent, hkey⟩ := hf.parent_eq parent key id hfind
  have hlt := (hf.made_of_transition hfind).1
  rw [lineage, rootOf, addedKeys]
  simp only [hparent, hkey, if_pos hlt]
  rfl

private theorem parent_eq_none {id : ShapeId} (hroot : (h.shape id).bare = .root) :
    (h.shape id).parent = none := congrArg Shape.parent hroot

/-- No two shapes come from the same root by the same names. -/
theorem eq_of_lineage_eq (hf : h.Forest) {id id' : ShapeId} (heq : h.lineage id = h.lineage id') :
    id = id' := by
  induction id using hf.induct generalizing id' with
  | root id hroot =>
    rw [lineage_of_root (parent_eq_none hroot)] at heq
    rcases hf.origin id' with hroot' | ⟨parent', key', -, hfind', -⟩
    · rw [lineage_of_root (parent_eq_none hroot')] at heq
      exact congrArg Lineage.root heq
    · rw [hf.lineage_of_transition hfind'] at heq
      cases heq
  | child parent key id hfind ih =>
    rw [hf.lineage_of_transition hfind] at heq
    rcases hf.origin id' with hroot' | ⟨parent', key', -, hfind', -⟩
    · rw [lineage_of_root (parent_eq_none hroot')] at heq
      cases heq
    · rw [hf.lineage_of_transition hfind'] at heq
      obtain ⟨hrooted, hadded⟩ := Lineage.mk.inj heq
      obtain ⟨hkey, hadded⟩ := List.cons.inj hadded
      have hparent : parent = parent' := ih (Lineage.ext hrooted hadded)
      rw [hparent, hkey, hfind'] at hfind
      exact (Option.some.inj hfind).symm

/-- Where a shape comes from never changes. -/
theorem lineage_of_grows (hf : h.Forest) (hf' : h'.Forest) (hg : h.Grows h') {id : ShapeId}
    (hle : id ≤ h.shapes.size) : h'.lineage id = h.lineage id := by
  induction id using hf.induct with
  | root id hroot =>
    have hnone := parent_eq_none hroot
    rw [lineage_of_root hnone, lineage_of_root ((hg.shape id hle).parent.trans hnone)]
  | child parent key id hfind ih =>
    have hparent := le_size_of_transition hfind
    have hfind' := (hg.shape parent hparent).transition key id hfind
    rw [hf'.lineage_of_transition hfind', hf.lineage_of_transition hfind, ih hparent]

private theorem addedKeys_of_root {id : ShapeId} (hroot : (h.shape id).bare = .root) :
    h.addedKeys id = [] :=
  congrArg Lineage.added (lineage_of_root (parent_eq_none hroot))

private theorem addedKeys_of_transition (hf : h.Forest) {parent id : ShapeId} {key : PropertyKey}
    (hfind : (h.shape parent).transitions.find? key = some id) :
    h.addedKeys id = key :: h.addedKeys parent :=
  congrArg Lineage.added (hf.lineage_of_transition hfind)

private theorem offsets_of_root {id : ShapeId} (hroot : (h.shape id).bare = .root) :
    (h.shape id).offsets = .empty := congrArg Shape.offsets hroot

private theorem offsets_of_transition (hf : h.Forest) {parent id : ShapeId} {key : PropertyKey}
    (hfind : (h.shape parent).transitions.find? key = some id) :
    (h.shape id).offsets = (h.shape parent).offsets.set key (h.shape parent).propertyCount :=
  congrArg Shape.offsets (hf.made_of_transition hfind).2

/-- The name that a shape adds leaves the slots of other names alone. -/
theorem offsetOf?_of_ne (hf : h.Forest) {parent id : ShapeId} {key other : PropertyKey}
    (hfind : (h.shape parent).transitions.find? other = some id) (hne : key ≠ other) :
    (h.shape id).offsetOf? key = (h.shape parent).offsetOf? key := by
  rw [Shape.offsetOf?, hf.offsets_of_transition hfind]
  exact Assoc.find?_set_of_ne _ _ hne

/-- The names of a shape are those on the way to it. -/
theorem mem_addedKeys_iff (hf : h.Forest) (id : ShapeId) (key : PropertyKey) :
    key ∈ h.addedKeys id ↔ ((h.shape id).offsetOf? key).isSome = true := by
  induction id using hf.induct with
  | root id hroot => simp [addedKeys_of_root hroot, Shape.offsetOf?, offsets_of_root hroot]
  | child parent other id hfind ih =>
    rw [hf.addedKeys_of_transition hfind, List.mem_cons, ih]
    by_cases hkey : key = other
    · simp [hkey, Shape.offsetOf?, hf.offsets_of_transition hfind]
    · simp [hkey, hf.offsetOf?_of_ne hfind hkey]

/-- No name has two slots. -/
theorem keyed (hf : h.Forest) (id : ShapeId) : (h.shape id).offsets.Keyed := by
  induction id using hf.induct with
  | root id hroot =>
    rw [offsets_of_root hroot]
    exact Assoc.keyed_empty
  | child parent key id hfind ih =>
    rw [hf.offsets_of_transition hfind]
    exact ih.set key _

/-- The names on the way to a shape have its slots, if none of them was added twice. -/
theorem ordered (hf : h.Forest) {id : ShapeId} (hnodup : (h.addedKeys id).Nodup) :
    (h.shape id).Ordered (h.addedKeys id).reverse := by
  induction id using hf.induct with
  | root id hroot =>
    rw [addedKeys_of_root hroot]
    exact Shape.ordered_of_empty (offsets_of_root hroot)
  | child parent key id hfind ih =>
    rw [hf.addedKeys_of_transition hfind, List.nodup_cons] at hnodup
    rw [hf.addedKeys_of_transition hfind, List.reverse_cons]
    have hnew : (h.shape parent).offsetOf? key = none := by
      rw [← Option.not_isSome_iff_eq_none, ← hf.mem_addedKeys_iff]
      exact hnodup.1
    exact (ih hnodup.2).add (hf.offsets_of_transition hfind) hnew

end Forest

theorem forest_of_shapes_eq (hf : h.Forest) (hshapes : h'.shapes = h.shapes) : h'.Forest := by
  have hshape (id : ShapeId) : h'.shape id = h.shape id := by rw [shape, shape, hshapes]
  constructor
  · intro id
    simp only [hshape]
    exact hf.origin id
  · intro parent key id
    simp only [hshape]
    exact hf.parent_eq parent key id

private theorem shape_next (h : Heap) : h.shape h.shapes.next = default :=
  Table.get_of_size_lt _ (Nat.lt_succ_self _)

theorem forest_addRoot (hf : h.Forest) : h.addRoot.2.Forest := by
  have hold (id : ShapeId) (hid : id ≤ h.shapes.size) : h.addRoot.2.shape id = h.shape id :=
    Table.get_add_of_le _ _ hid
  have hcases (id : ShapeId) : h.addRoot.2.shape id = h.shape id ∨
      id = h.shapes.next ∧ h.addRoot.2.shape id = .root := Table.get_add_cases h.shapes .root id
  constructor
  · intro id
    rcases hcases id with heq | ⟨-, heq⟩ <;> rw [heq]
    · rcases hf.origin id with hroot | ⟨parent, key, hlt, hfind, hbare⟩
      · exact .inl hroot
      · have hparent := hold parent (le_size_of_transition hfind)
        exact .inr ⟨parent, key, hlt, by rw [hparent, hfind], by rw [hparent, hbare]⟩
    · exact .inl rfl
  · intro parent key id hfind
    rcases hcases parent with heq | ⟨-, heq⟩ <;> rw [heq] at hfind
    · obtain ⟨hparent, hkey⟩ := hf.parent_eq parent key id hfind
      rcases hcases id with heq' | ⟨hnew, -⟩
      · rw [heq']
        exact ⟨hparent, hkey⟩
      · -- the new shape is led to by none
        rw [hnew, shape_next] at hparent
        cases hparent
    · cases hfind

/-- After a step from a shape for a name, the shape leads to the one that the step came to. -/
theorem find?_transition {id : ShapeId} (hpos : 0 < id) (hle : id ≤ h.shapes.size)
    (key : PropertyKey) :
    ((h.transition id key).2.shape id).transitions.find? key = some (h.transition id key).1 := by
  cases hfind : (h.shape id).transitions.find? key with
  | some next =>
    rw [transition_of_find? hfind, hfind]
  | none =>
    have hnext := (transition_of_find?_none hfind).1
    have hne : id ≠ h.shapes.next := Nat.ne_of_lt (Nat.lt_succ_of_le hle)
    rcases shape_transition_cases hfind hpos hle id with ⟨hnew, -⟩ | ⟨-, -, heq⟩ | ⟨-, hid, -⟩
    · exact absurd hnew hne
    · rw [heq, hnext]
      exact Assoc.find?_set_self _ _ _
    · exact absurd rfl hid

/-- The shapes of before stay as they were made. -/
theorem bare_transition {id k : ShapeId} {key : PropertyKey}
    (hnone : (h.shape id).transitions.find? key = none) (hpos : 0 < id) (hle : id ≤ h.shapes.size)
    (hk : k ≠ h.shapes.next) : ((h.transition id key).2.shape k).bare = (h.shape k).bare := by
  rcases shape_transition_cases hnone hpos hle k with ⟨hnew, -⟩ | ⟨-, rfl, heq⟩ | ⟨-, -, heq⟩
  · exact absurd hnew hk
  · rw [heq]
    rfl
  · rw [heq]

private theorem shape_transition_next {id : ShapeId} {key : PropertyKey}
    (hnone : (h.shape id).transitions.find? key = none) (hpos : 0 < id) (hle : id ≤ h.shapes.size) :
    (h.transition id key).2.shape h.shapes.next = (h.shape id).child id key := by
  rcases shape_transition_cases hnone hpos hle h.shapes.next with ⟨-, heq⟩ | ⟨hne, -⟩ | ⟨hne, -⟩
  · exact heq
  · exact absurd rfl hne
  · exact absurd rfl hne

theorem forest_transition (hf : h.Forest) {id : ShapeId} (hpos : 0 < id) (hle : id ≤ h.shapes.size)
    (key : PropertyKey) : (h.transition id key).2.Forest := by
  cases hfind : (h.shape id).transitions.find? key with
  | some next =>
    rw [transition_of_find? hfind]
    exact hf
  | none =>
    have hmade := shape_transition_next hfind hpos hle
    have hchild {parent : ShapeId} (hparent : parent ≤ h.shapes.size) (other : PropertyKey) :
        ((h.transition id key).2.shape parent).child parent other = (h.shape parent).child parent other :=
      Shape.child_congr (bare_transition hfind hpos hle (Nat.ne_of_lt (Nat.lt_succ_of_le hparent))) _ _
    constructor
    · intro k
      by_cases hk : k = h.shapes.next
      · subst hk
        have hstep := find?_transition hpos hle key
        rw [(transition_of_find?_none hfind).1] at hstep
        refine .inr ⟨id, key, Nat.lt_succ_of_le hle, hstep, ?_⟩
        rw [hmade, hchild hle]
        rfl
      · rw [bare_transition hfind hpos hle hk]
        rcases hf.origin k with hroot | ⟨parent, other, hlt, hold, hbare⟩
        · exact .inl hroot
        · have hparent := le_size_of_transition hold
          have hkept := (extends_transition hfind hpos hle hparent).transition other k hold
          exact .inr ⟨parent, other, hlt, hkept, by rw [hchild hparent, hbare]⟩
    · intro parent other k hled
      rcases find?_transition_cases hfind hpos hle hled with hold | ⟨rfl, rfl, rfl⟩
      · obtain ⟨hparent, hkey⟩ := hf.parent_eq parent other k hold
        have hk : k ≠ h.shapes.next := fun heq => by
          rw [heq, shape_next] at hparent
          cases hparent
        have hsame := bare_transition hfind hpos hle hk
        exact ⟨(congrArg Shape.parent hsame).trans hparent, (congrArg Shape.key hsame).trans hkey⟩
      · rw [hmade]
        exact ⟨rfl, rfl⟩

theorem initial_forest : initial.Forest := by
  have hshape (id : ShapeId) : initial.shape id = .root := by
    rcases id with _ | _ | id <;> rfl
  constructor
  · intro id
    rw [hshape]
    exact .inl rfl
  · intro parent key id hfind
    rw [hshape] at hfind
    cases hfind

end Heap

end InlineCache
