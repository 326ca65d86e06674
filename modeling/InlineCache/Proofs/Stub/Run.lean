import InlineCache.Proofs.Heap.Built
import InlineCache.Proofs.Heap.Records
import InlineCache.Proofs.Stub.Rules

namespace InlineCache

variable {σ : Type} {classed : Prop} {w : World σ} {op : SiteOperation} {stub : Stub}

theorem World.records_enterCall (h : Heap) (id : ObjectId) : h.Records (enterCall h id) :=
  Heap.records_modifyObject h id fun _ => rfl

theorem World.records_leaveCall (h : Heap) (id : ObjectId) : h.Records (leaveCall h id) :=
  Heap.records_modifyObject h id fun _ => rfl

namespace Handler

/-- What code makes of a heap while no native function runs. -/
inductive Worked (classed : Prop) (h : Heap) : Heap → Prop where
  | same : Worked classed h h
  | working {h' : Heap} (hworking : h.Working classed h') (hgroups : h'.groups.size = h.groups.size) :
      Worked classed h h'
  | call (id : ObjectId) : Worked classed h (World.leaveCall (World.enterCall h id) id)

theorem Worked.evolves {h h' : Heap} (hworked : Worked classed h h') : h.Evolves classed h' := by
  cases hworked with
  | same => exact .refl classed h
  | working hworking _ => exact hworking.evolves
  | call id =>
    have hcover := Rules.fitting_cover classed
    exact (hcover.allows_enterCall h id).trans (hcover.allows_leaveCall _ id)

theorem Worked.records {h h' : Heap} (hworked : Worked classed h h') : h.Records h' := by
  cases hworked with
  | same => exact .refl h
  | working hworking _ => exact hworking.records
  | call id => exact (World.records_enterCall h id).trans (World.records_leaveCall _ id)

/-- What code makes of a heap is built on it. -/
theorem Worked.builds {h h' : Heap} (hworked : Worked False h h') : h.Builds h' := by
  cases hworked with
  | same => exact .refl h
  | working hworking hgroups => exact (Heap.Built.working hworking hgroups).builds
  | call id => exact (Heap.Built.enterCall id).builds.trans (Heap.Built.leaveCall id).builds

private theorem worked_addSlot (hw : w.heap.WellFormed classed)
    (hfits : StubFits classed w.heap op .addSlot stub.payload) (ops : Operands) :
    Worked classed w.heap (addSlot w stub.payload ops).2.heap := by
  cases hpayload : stub.payload with
  | addSlot group old new =>
    rw [hpayload] at hfits
    cases hfits with
    | addSlot _ _ _ _ hstep =>
      obtain ⟨hpos, hle⟩ := hw.transition old _ new hstep
      unfold addSlot
      split
      · next id v heq =>
        cases heq
        split
        · next h hadd =>
          have hworking : Heap.Working classed w.heap _ := .addSlot id old v hpos hle
          have hgroups := Heap.groups_addSlot w.heap id old new v
          rw [hadd] at hworking hgroups
          exact .working hworking (congrArg Table.size hgroups)
        · split
          · exact .same
          · next key _ =>
            change Worked classed w.heap (Operation.setProperty w.heap (.object id) key v).2
            rcases (Operation.keepsOnError_setProperty w.heap (.object id) key v).cases with heq | ⟨_, hset⟩
            · rw [heq]
              exact .same
            · have hgroups := Operation.groups_setObjectProperty hset
              exact .working (Operation.working_setObjectProperty hset) (congrArg Table.size hgroups)
      · exact .same
      · exact .same
  | _ =>
    rw [hpayload] at hfits
    cases hfits

theorem worked_run {signature : Signature} (hw : w.heap.WellFormed classed)
    (hfits : StubFits classed w.heap op signature stub.payload) (ops : Operands) :
    Worked classed w.heap (run .absent signature stub ops w).2.heap := by
  cases signature with
  | addSlot => exact worked_addSlot hw hfits ops
  | callFunction =>
    simp only [run]
    unfold callFunction
    split
    · unfold World.callObject
      split
      · exact .same
      · exact .call _
    · exact .same
    · exact .same
  | setPropSlot =>
    simp only [run]
    unfold writeSlot
    split
    · exact .working (.setSlot _ _ _) rfl
    · exact .same
    · exact .same
  | setElemDense | setElemAppend =>
    simp only [run]
    unfold writeElement
    split
    · split
      · exact .working (.setElement _ _ _) rfl
      · exact .same
    · exact .same
  | iterateArray =>
    simp only [run]
    unfold iterate
    split
    · next id _ =>
      have hgroups := Heap.groups_newArrayIterator w.heap id
      exact .working (.newArrayIterator id) (congrArg Table.size hgroups)
    · exact .same
  | _ => exact .same

end Handler

end InlineCache
