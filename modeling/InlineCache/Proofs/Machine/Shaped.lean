import InlineCache.Proofs.Heap.History
import InlineCache.Proofs.Heap.Order
import InlineCache.Proofs.Machine.Write

namespace InlineCache

namespace Heap

variable {h : Heap} {old new : ShapeId} {key : PropertyKey} {id : ObjectId}

/-- An object that has the first shape of a step, and may gain names, gains the same by the step and by the
write of the name. -/
theorem Adds.addSlot_eq (hadds : h.Adds old new key) (hshape : (h.object id).shape = old)
    (hextensible : (h.object id).extensible = true) (v : Value) :
    h.addSlot id old new v = h.setNamed id key v ∧ ((h.setNamed id key v).2.object id).shape = new := by
  subst hshape
  have hnew : (h.shapeOf id).offsetOf? key = none := hadds.lacks
  have htransition := transition_of_find? hadds.step
  have hwrite : h.setNamed id key v = (true, h.appendSlot id new v) := by
    simp only [setNamed, hnew, hextensible, if_true, htransition]
  obtain ⟨hpos, hle⟩ := there_of_extensible hextensible
  rw [hwrite]
  constructor
  · simp only [addSlot, hextensible, and_self, if_true]
  · rw [appendSlot, object_modifyObject_self hpos hle]

end Heap

/-- A stub takes an object from one shape to another as the write of a name does. This is what the guard
of such a stub relies on when it compares shapes. -/
structure World.StepsAsWritten {σ : Type} (w : World σ) (stub : Stub) (old new : ShapeId)
    (key : PropertyKey) : Prop where
  payload : ∃ group, stub.payload = .addSlot group old new
  adds : w.heap.Adds old new key
  /-- The write does not make another shape. -/
  transition : w.heap.transition old key = (new, w.heap)
  addSlot : ∀ id v, (w.heap.object id).shape = old → (w.heap.object id).extensible = true →
    w.heap.addSlot id old new v = w.heap.setNamed id key v ∧
      ((w.heap.setNamed id key v).2.object id).shape = new
  run : ∀ (natives : Natives σ) id v,
    Guard.holds w.heap .addSlot stub (.binary (.object id) v) = true →
      (Handler.run natives .addSlot stub (.binary (.object id) v) w).2.heap =
        (w.heap.setNamed id key v).2

private theorem StubFits.stepsAsWritten {σ : Type} {classed : Prop} {w : World σ} {stub : Stub}
    {key : PropertyKey} (hfits : StubFits classed w.heap (.setProp key) .addSlot stub.payload) :
    ∃ old new, w.StepsAsWritten stub old new key := by
  obtain ⟨group, old, new, hpayload⟩ : ∃ group old new, stub.payload = .addSlot group old new := by
    cases hpayload : stub.payload with
    | addSlot group old new => exact ⟨group, old, new, rfl⟩
    | _ =>
      rw [hpayload] at hfits
      cases hfits
  have hadds : w.heap.Adds old new key := by
    rw [hpayload] at hfits
    cases hfits with
    | addSlot _ _ _ hnone hstep => exact ⟨hstep, hnone⟩
  refine ⟨old, new, ?_⟩
  exact
    { payload := ⟨group, hpayload⟩
      adds := hadds
      transition := Heap.transition_of_find? hadds.step
      addSlot := fun id v hshape hextensible => hadds.addSlot_eq hshape hextensible v
      run := fun natives id v hguard => by
        rcases hfits.run_write natives hguard with
          ⟨hslot, -⟩ | ⟨-, next, hnone, hextensible, hstep, hrun⟩
        · cases hslot
        · rw [hrun, Heap.setNamed_of_transition hnone hextensible hstep]
          rfl }

namespace Machine

/-- Shapes are told apart by their roots and the names that were added to those, and objects of one root by
the order in which they gained their names. A stub that adds a slot, in a state that can be reached, takes
objects to the shape that the write of the name takes them to. -/
theorem shapes_identified {calls : List ShapeCall} (hcalls : ShapeHistory.start.Obeys calls)
    {actions : List HeapAction} (hactions : Heap.initial.Obeys actions) {σ : Type} {m : Machine σ}
    (hm : m.Reached (.fitting False)) :
    (ShapeHistory.start.run calls).Identified ∧
    (∀ root a b, Heap.initial.madeWith actions a = some root →
      Heap.initial.madeWith actions b = some root →
      (((Heap.initial.run actions).object a).shape = ((Heap.initial.run actions).object b).shape ↔
        Heap.initial.order actions a = Heap.initial.order actions b)) ∧
    ∀ c index key, index < (m.world.cache c).entries.size →
      ((m.world.cache c).site index).role = .operation (.setProp key) →
      ∀ stub ∈ ((m.world.cache c).entry index).chain.stubs (m.world.cache c).arena,
      ∀ code, stub.code = some code → code.signature = .addSlot →
        ∃ old new, m.world.StepsAsWritten stub old new key := by
  refine ⟨(ShapeHistory.start_sound.run hcalls).identified, fun root a b ha hb => ?_,
    fun c index key hin hrole stub hmem code hcode hsignature => ?_⟩
  · have hlineage := Heap.lineage_of_madeWith hactions ha
    have hlineage' := Heap.lineage_of_madeWith hactions hb
    constructor
    · intro hshape
      rw [hshape] at hlineage
      exact List.reverse_inj.1 (congrArg Lineage.added (hlineage.symm.trans hlineage'))
    · intro horder
      rw [horder] at hlineage
      exact (Heap.initial_laid.run hactions).forest.eq_of_lineage_eq (hlineage.trans hlineage'.symm)
  · have hfitted := hm.sound.fitted.bench (World.hasCache_of_lt hin)
    obtain ⟨op, hop, hfits⟩ := hfitted.stub index hin stub hmem
    cases hrole.symm.trans hop
    have hstub := hfits code hcode
    rw [hsignature] at hstub
    exact hstub.stepsAsWritten

/-- Two roots, the same name for each of them, and a step that was taken before. -/
def forkCalls : List ShapeCall :=
  [.transition 1 "x", .root, .transition 3 "x", .transition 2 "y", .transition 1 "x"]

/-- Three objects, of which the last one gains its second name by the step of a stub. -/
def twinActions : List HeapAction :=
  [.create .plain Heap.plainGroup false Heap.rootShape #[] none,
    .create .plain Heap.plainGroup false Heap.rootShape #[] none,
    .create .plain Heap.plainGroup false Heap.rootShape #[] none,
    .setNamed 1 "x" (.int32 1), .setNamed 1 "y" (.int32 2), .setNamed 2 "y" (.int32 3),
    .setNamed 2 "x" (.int32 4), .setNamed 3 "x" (.int32 5),
    .addSlotStub (.addSlot Heap.plainGroup 2 3) (.binary (.object 3) (.int32 6))]

private theorem twinActions_obey : Heap.initial.Obeys twinActions :=
  ⟨⟨by decide, by decide, by decide, rfl⟩, ⟨by decide, by decide, by decide, rfl⟩,
    ⟨by decide, by decide, by decide, rfl⟩, trivial, trivial, trivial, trivial, trivial,
    ⟨"y", rfl, rfl⟩, trivial⟩

theorem twins_share_shape :
    (ShapeHistory.start.run forkCalls).Identified ∧
    ((Heap.initial.run twinActions).object 1).shape = ((Heap.initial.run twinActions).object 3).shape ∧
    ((Heap.initial.run twinActions).object 1).shape ≠ ((Heap.initial.run twinActions).object 2).shape ∧
    ∃ stub ∈ ((plainWritten.world.cache 1).entry 0).chain.stubs (plainWritten.world.cache 1).arena,
      ∃ old new, plainWritten.world.StepsAsWritten stub old new "length" := by
  have hcalls : ShapeHistory.start.Obeys forkCalls :=
    ⟨⟨.root, .head _⟩, trivial, ⟨.root, .head _⟩, ⟨_, .tail _ (.tail _ (.head _))⟩,
      ⟨.root, .tail _ (.tail _ (.tail _ (.tail _ (.head _))))⟩, trivial⟩
  obtain ⟨hidentified, hsame, hstubs⟩ :=
    shapes_identified hcalls twinActions_obey plainWritten_reached
  refine ⟨hidentified, (hsame 1 1 3 rfl rfl).2 rfl, fun h => ?_, ?_⟩
  · have horder := (hsame 1 1 2 rfl rfl).1 h
    revert horder
    decide
  · obtain ⟨stub, hmem, code, hcode, hsignature, -⟩ := exists_stub_plainWritten
    have hsize : (plainWritten.world.cache 1).entries.size = 1 := by decide +kernel
    exact ⟨stub, hmem,
      hstubs 1 0 "length" (by rw [hsize]; exact Nat.one_pos) (by decide +kernel) stub hmem
        code hcode hsignature⟩

end Machine

end InlineCache
