import InlineCache.Proofs.Heap.Built

namespace InlineCache

namespace Heap

variable {h h' : Heap} {id next proto : ObjectId}

/-- The objects of the first one's group inherit from the second one. -/
def Inherits (h : Heap) (id proto : ObjectId) : Prop := Operation.prototype? h id = some proto

/-- The prototype of a group is an object of an older group. A group is made with its prototype and an
object is made in its group, and neither changes, so each step along the chain leads to an older group. -/
def Founded (h : Heap) : Prop :=
  ∀ (group : GroupId) (proto : ObjectId), (h.group group).proto = some proto →
    proto ≤ h.objects.size ∧ (h.object proto).group < group

private theorem initial_founded : initial.Founded := by
  intro group proto hproto
  rcases group with _ | _ | _ | _ | _ | group <;> cases hproto

private theorem proto_modifyGroup (h : Heap) (id : GroupId) {f : Group → Group}
    (hf : ∀ g, (f g).proto = g.proto)
    (group : GroupId) : ((h.modifyGroup id f).group group).proto = (h.group group).proto := by
  rcases h.groups.get_modify_cases id f group with heq | heq <;>
    simp only [Heap.group, modifyGroup, heq]
  exact hf _

private theorem proto_eq_of_seen (hs : h'.seen = h.seen) (group : GroupId) :
    (h'.group group).proto = (h.group group).proto := by
  have hproto := congrArg Group.proto (group_seen_eq_of_seen hs group)
  exact hproto

/-- Groups keep their prototypes, while none is made. -/
theorem Working.proto_eq {classed : Prop} (hworking : Working classed h h')
    (hgroups : h'.groups.size = h.groups.size) (group : GroupId) :
    (h'.group group).proto = (h.group group).proto := by
  have hsame (heq : h'.groups = h.groups) : (h'.group group).proto = (h.group group).proto := by
    rw [Heap.group, Heap.group, heq]
  cases hworking with
  | addGroup g =>
    rw [Heap.addGroup, Table.size_add] at hgroups
    exact absurd hgroups (Nat.succ_ne_self _)
  | finishPreliminary target =>
    exact proto_modifyGroup h target (f := Group.finishPreliminary) (fun _ => rfl) group
  | markUnknownProperties target =>
    exact proto_modifyGroup h target (f := Group.markUnknownProperties) (fun _ => rfl) group
  | addPropertyType target key v => exact proto_eq_of_seen (seen_addPropertyType h target key v) group
  | transition shape key _ _ => exact hsame (groups_transition h shape key)
  | newArrayIterator target => exact hsame (groups_newArrayIterator h target)
  | setNamed target key v => exact hsame (groups_setNamed h target key v)
  | addSlot target old v _ _ => exact hsame (groups_addSlot h target old _ v)
  | _ => rfl

/-- Where groups keep their prototypes, and objects their groups, the prototypes are as old as before. -/
theorem Founded.of_proto_eq (hf : h.Founded) (hgrows : h.Grows h')
    (hproto : ∀ group, (h'.group group).proto = (h.group group).proto) : h'.Founded := by
  intro group proto hsome
  rw [hproto] at hsome
  obtain ⟨hle, hlt⟩ := hf group proto hsome
  refine ⟨Nat.le_trans hle hgrows.objects_le, ?_⟩
  rw [(hgrows.object proto hle).group]
  exact hlt

/-- A new group is younger than the group of its prototype. -/
theorem Founded.addGroup (hf : h.Founded) (hw : h.WellFormed False) {g : Group}
    (hproto : ∀ id, g.proto = some id → 0 < id ∧ id ≤ h.objects.size) : (h.addGroup g).2.Founded := by
  intro group proto hsome
  have hobject : (h.addGroup g).2.object proto = h.object proto := rfl
  rcases h.groups.get_add_cases g group with hold | ⟨rfl, hnew⟩
  · rw [Heap.group, Heap.addGroup, hold] at hsome
    exact hf group proto hsome
  · rw [Heap.group, Heap.addGroup, hnew] at hsome
    refine ⟨(hproto proto hsome).2, ?_⟩
    rw [hobject]
    exact Nat.lt_succ_of_le (hw.object proto).group_le

private theorem Built.founded (hw : h.WellFormed False) (hb : h.Built h') (hf : h.Founded) :
    h'.Founded := by
  obtain ⟨hgrows, -⟩ := hb.evolves hw
  cases hb with
  | addGroup g hproto => exact hf.addGroup hw hproto
  | working hworking hgroups => exact hf.of_proto_eq hgrows (hworking.proto_eq hgroups)
  | enterCall id | leaveCall id => exact hf.of_proto_eq hgrows fun _ => rfl
  | recorded hseen =>
    exact hf.of_proto_eq hgrows (proto_eq_of_seen hseen)

theorem Builds.founded (hb : initial.Builds h) : h.Founded :=
  hb.keeps Built.founded (initial_wellFormed False) initial_founded

/-- A walk along the chain, from an object on it or from its end, and whether the object that is looked for
was found. -/
inductive Walk (h : Heap) (proto : ObjectId) : Option ObjectId → Bool → Prop where
  | ended : Walk h proto none false
  | found : Walk h proto (some proto) true
  | on {id : ObjectId} {found : Bool} (hne : id ≠ proto)
      (hwalk : Walk h proto (Operation.prototype? h id) found) : Walk h proto (some id) found

/-- There is one way to walk. -/
theorem Walk.unique {start : Option ObjectId} {found found' : Bool} (hwalk : Walk h proto start found)
    (hwalk' : Walk h proto start found') : found = found' := by
  induction hwalk with
  | ended =>
    cases hwalk'
    rfl
  | found =>
    cases hwalk' with
    | found => rfl
    | on hne _ => exact absurd rfl hne
  | on hne _ ih =>
    cases hwalk' with
    | found => exact absurd rfl hne
    | on _ hwalk' => exact ih hwalk'

/-- A walk finds what there is on the chain. -/
theorem walk_true_iff :
    Walk h proto (Operation.prototype? h id) true ↔ Relation.TransGen h.Inherits id proto := by
  constructor
  · intro hwalk
    generalize hstart : Operation.prototype? h id = start at hwalk
    generalize hfound : true = found at hwalk
    induction hwalk generalizing id with
    | ended => cases hfound
    | found => exact .single hstart
    | on _ _ ih => exact .head hstart (ih rfl hfound)
  · intro hchain
    induction hchain using Relation.TransGen.head_induction_on with
    | single hstep =>
      rw [show Operation.prototype? h _ = some proto from hstep]
      exact .found
    | @head id next hstep _ ih =>
      rw [show Operation.prototype? h id = some next from hstep]
      by_cases heq : next = proto
      · subst heq
        exact .found
      · exact .on heq ih

/-- Every step of a walk leads to an older group, so as many steps are enough as there are groups up to that
of the object. -/
theorem Founded.walk (hf : h.Founded) (proto : ObjectId) {steps : Nat}
    (hsteps : (h.object id).group ≤ steps) :
    Walk h proto (Operation.prototype? h id) (Operation.inheritsWithin h proto steps id) := by
  induction steps generalizing id with
  | zero =>
    have hnone : Operation.prototype? h id = none := by
      rw [Operation.prototype?, groupOf, Nat.le_zero.1 hsteps]
      rfl
    rw [hnone]
    exact .ended
  | succ steps ih =>
    rw [Operation.inheritsWithin]
    cases hnext : Operation.prototype? h id with
    | none => exact .ended
    | some next =>
      obtain ⟨-, hlt⟩ := hf _ next hnext
      by_cases heq : next = proto
      · subst heq
        simpa using Walk.found
      · simpa [heq] using Walk.on heq (ih (Nat.le_of_lt_succ (Nat.lt_of_lt_of_le hlt hsteps)))

/-- The chain leads to older groups. -/
theorem Founded.group_lt (hf : h.Founded) (hchain : Relation.TransGen h.Inherits id proto) :
    (h.object proto).group < (h.object id).group := by
  induction hchain with
  | single hstep => exact (hf _ _ hstep).2
  | tail _ hstep ih => exact Nat.lt_trans (hf _ _ hstep).2 ih

/-- How a walk along the chain of a value comes out. What is no object has no chain. -/
def InheritanceWalk (h : Heap) (v : Value) (proto : ObjectId) (found : Bool) : Prop :=
  match v with
  | .object id => Walk h proto (Operation.prototype? h id) found
  | _ => found = false

/-- A value inherits from the objects on its chain of prototypes. -/
def ValueInherits (h : Heap) (v : Value) (proto : ObjectId) : Prop :=
  ∃ id, v = .object id ∧ Relation.TransGen h.Inherits id proto

theorem InheritanceWalk.unique {v : Value} {found found' : Bool} (hwalk : h.InheritanceWalk v proto found)
    (hwalk' : h.InheritanceWalk v proto found') : found = found' := by
  cases v with
  | object id => exact Walk.unique hwalk hwalk'
  | _ => exact Eq.trans hwalk (Eq.symm hwalk')

theorem inheritanceWalk_true_iff {v : Value} : h.InheritanceWalk v proto true ↔ h.ValueInherits v proto := by
  cases v with
  | object id => simp [InheritanceWalk, ValueInherits, walk_true_iff]
  | _ => simp [InheritanceWalk, ValueInherits]

/-- The walk comes to its end within as many steps as there are groups. -/
theorem Founded.inheritanceWalk (hf : h.Founded)
    (hgroup : ∀ id, (h.object id).group ≤ h.groups.size) (v : Value) (proto : ObjectId) :
    h.InheritanceWalk v proto (Operation.inheritsFrom h v proto) := by
  cases v with
  | object id => exact hf.walk proto (hgroup id)
  | _ => rfl

theorem ValueInherits.trans {v : Value} {proto' : ObjectId} (hv : h.ValueInherits v proto)
    (hproto : h.ValueInherits (.object proto) proto') : h.ValueInherits v proto' := by
  obtain ⟨id, rfl, hchain⟩ := hv
  obtain ⟨id', heq, hchain'⟩ := hproto
  cases heq
  exact ⟨id, rfl, hchain.trans hchain'⟩

/-- Nothing inherits from itself. -/
theorem Founded.not_inherits_self (hf : h.Founded) (id : ObjectId) : ¬ h.ValueInherits (.object id) id := by
  rintro ⟨id', heq, hchain⟩
  cases heq
  exact Nat.lt_irrefl _ (hf.group_lt hchain)

end Heap

end InlineCache
