import InlineCache.Proofs.Heap.Working
import Mathlib.Logic.Relation

namespace InlineCache

namespace Heap

/-- One step by which a heap is built on. It is one of the heap's own workings, with the one proviso
that a new group has an object of the heap as its prototype, if it has one. -/
inductive Built (h : Heap) : Heap → Prop where
  | addGroup (g : Group) (hproto : ∀ id, g.proto = some id → 0 < id ∧ id ≤ h.objects.size) :
      Built h (h.addGroup g).2
  /-- Any working that makes no group. -/
  | working {h' : Heap} (hworking : Working False h h') (hgroups : h'.groups.size = h.groups.size) :
      Built h h'
  | enterCall (id : ObjectId) : Built h (World.enterCall h id)
  | leaveCall (id : ObjectId) : Built h (World.leaveCall h id)
  | recorded {h' : Heap} (hseen : h'.seen = h.seen) : Built h h'

/-- Some steps, one after the other. -/
def Builds : Heap → Heap → Prop := Relation.ReflTransGen Built

variable {h h' h'' : Heap}

theorem Builds.refl (h : Heap) : h.Builds h := Relation.ReflTransGen.refl

theorem Builds.trans (hb : h.Builds h') (hb' : h'.Builds h'') : h.Builds h'' :=
  Relation.ReflTransGen.trans hb hb'

theorem Built.builds (hb : h.Built h') : h.Builds h' := Relation.ReflTransGen.single hb

/-- A working that leaves the groups alone. -/
theorem Working.builds (hworking : Working False h h') (hgroups : h'.groups = h.groups) : h.Builds h' :=
  (Built.working hworking (congrArg Table.size hgroups)).builds

private theorem evolves_enterCall (classed : Prop) (h : Heap) (id : ObjectId) :
    h.Evolves classed (World.enterCall h id) := by
  refine evolves_of_keep id (fun o => ⟨rfl, rfl, ?_⟩) (fun _ => rfl) fun _ he => he
  simp [Object.isCallable]

private theorem evolves_leaveCall (classed : Prop) (h : Heap) (id : ObjectId) :
    h.Evolves classed (World.leaveCall h id) := by
  refine evolves_of_keep id (fun o => ⟨rfl, rfl, ?_⟩) (fun _ => rfl) fun _ he => he
  simp [Object.isCallable]

theorem Built.evolves (hb : h.Built h') : h.Evolves False h' := by
  cases hb with
  | addGroup g _ => exact evolves_addGroup False h g
  | working hworking _ => exact hworking.evolves
  | enterCall id => exact evolves_enterCall False h id
  | leaveCall id => exact evolves_leaveCall False h id
  | recorded hseen => exact evolves_of_seen hseen

theorem Builds.evolves (hb : h.Builds h') : h.Evolves False h' := by
  induction hb with
  | refl => exact .refl False h
  | tail _ hstep ih => exact ih.trans hstep.evolves

/-- What every step keeps of well-formed heaps, a run of steps keeps. -/
theorem Builds.keeps {P : Heap → Prop} (hstep : ∀ {h h' : Heap}, h.WellFormed False → h.Built h' → P h → P h')
    (hb : h.Builds h') (hw : h.WellFormed False) (hp : P h) : P h' := by
  induction hb with
  | refl => exact hp
  | tail hb' hbuilt ih => exact hstep (Builds.evolves hb' hw).2 hbuilt ih

theorem groups_setNamed (h : Heap) (id : ObjectId) (key : PropertyKey) (v : Value) :
    (h.setNamed id key v).2.groups = h.groups := by
  unfold setNamed
  split
  · rfl
  · split
    · exact groups_transition h _ key
    · rfl

theorem groups_addSlot (h : Heap) (id : ObjectId) (old next : ShapeId) (v : Value) :
    (h.addSlot id old next v).2.groups = h.groups := by
  unfold addSlot
  split <;> rfl

theorem groups_newArrayIterator (h : Heap) (target : ObjectId) :
    (h.newArrayIterator target).2.groups = h.groups :=
  (groups_setNamed _ _ _ _).trans (groups_setNamed _ _ _ _)

end Heap

namespace Operation

variable {h h' : Heap}

theorem groups_setObjectProperty {id : ObjectId} {key : PropertyKey} {v : Value}
    (hset : setObjectProperty h id key v = (.ok (), h')) : h'.groups = h.groups := by
  rcases setObjectProperty_cases hset with ⟨size, rfl⟩ | ⟨index, rfl⟩ | rfl
  · rfl
  · rfl
  · exact Heap.groups_setNamed h id key v

private theorem groups_setProperty {target : Value} {key : PropertyKey} {v : Value}
    (hset : setProperty h target key v = (.ok (), h')) : h'.groups = h.groups := by
  rcases setProperty_cases hset with rfl | ⟨id, -, hobject⟩
  · rfl
  · exact groups_setObjectProperty hobject

private theorem groups_setElement {target index v : Value}
    (hset : setElement h target index v = (.ok (), h')) : h'.groups = h.groups := by
  rcases setElement_cases hset with ⟨id, n, rfl⟩ | ⟨key, -, hproperty⟩
  · rfl
  · exact groups_setProperty hproperty

private theorem groups_getIterator {v iterator : Value} (hget : getIterator h v = (.ok iterator, h')) :
    h'.groups = h.groups := by
  obtain ⟨id, rfl⟩ := getIterator_cases hget
  exact Heap.groups_newArrayIterator h id

/-- A write is a step of the heap, or leaves it alone. -/
theorem builds_setProperty {target : Value} {key : PropertyKey} {v : Value}
    (hset : setProperty h target key v = (.ok (), h')) : h.Builds h' := by
  obtain rfl | hworking : h' = h ∨ h.Working False h' := working_setProperty hset
  · exact .refl h'
  · exact hworking.builds (groups_setProperty hset)

private theorem builds_setElement {target index v : Value}
    (hset : setElement h target index v = (.ok (), h')) : h.Builds h' := by
  obtain rfl | hworking : h' = h ∨ h.Working False h' := working_setElement hset
  · exact .refl h'
  · exact hworking.builds (groups_setElement hset)

end Operation

namespace Request

variable {h h' : Heap} {r : Request} {v : Value}

/-- What a request makes of a heap is built on it. -/
theorem builds_outcome (houtcome : r.outcome? h = some (.ok (v, h'))) : h.Builds h' := by
  rcases outcome_cases houtcome with
    rfl | ⟨target, key, v', hset⟩ | ⟨target, index, v', hset⟩ | ⟨target, hget⟩
  · exact .refl h'
  · exact Operation.builds_setProperty hset
  · exact Operation.builds_setElement hset
  · exact (Operation.working_getIterator hget).builds (Operation.groups_getIterator hget)

end Request

end InlineCache
