import InlineCache.Proofs.Heap.Built

namespace InlineCache

variable {σ : Type}

/-- What is made of a heap by one operation: nothing, one change to one object, a new iterator, or a call that
is over at once. -/
inductive Heap.Touched (h : Heap) : Heap → Prop where
  | same : Touched h h
  | setSlot (id : ObjectId) (offset : Nat) (v : Value) : Touched h (h.modifyObject id (·.setSlot offset v))
  | setElement (id : ObjectId) (index : Nat) (v : Value) :
      Touched h (h.modifyObject id (·.setElement index v))
  | setElementCount (id : ObjectId) (size : Nat) : Touched h (h.modifyObject id (·.setElementCount size))
  | setNamed (id : ObjectId) (key : PropertyKey) (v : Value) : Touched h (h.setNamed id key v).2
  | addSlot (id : ObjectId) (old next : ShapeId) (v : Value) : Touched h (h.addSlot id old next v).2
  | newArrayIterator (target : ObjectId) : Touched h (h.newArrayIterator target).2
  | call (id : ObjectId) (hcallable : (h.object id).isCallable = true) :
      Touched h (World.leaveCall (World.enterCall h id) id)

namespace Operation

variable {h h' : Heap}

private theorem touched_setProperty {target : Value} {key : PropertyKey} {v : Value}
    (hset : setProperty h target key v = (.ok (), h')) : h.Touched h' := by
  rcases setProperty_cases hset with rfl | ⟨id, -, hobject⟩
  · exact .same
  · rcases setObjectProperty_cases hobject with ⟨size, rfl⟩ | ⟨index, rfl⟩ | rfl
    · exact .setElementCount id size
    · exact .setElement id index v
    · exact .setNamed id key v

private theorem touched_setElement {target index v : Value}
    (hset : setElement h target index v = (.ok (), h')) : h.Touched h' := by
  rcases setElement_cases hset with ⟨id, n, rfl⟩ | ⟨key, -, hproperty⟩
  · exact .setElement id n v
  · exact touched_setProperty hproperty

private theorem touched_getIterator {v iterator : Value} (hget : getIterator h v = (.ok iterator, h')) :
    h.Touched h' := by
  obtain ⟨id, rfl⟩ := getIterator_cases hget
  exact .newArrayIterator id

end Operation

theorem Request.touched_outcome {h h' : Heap} {r : Request} {v : Value}
    (houtcome : r.outcome? h = some (.ok (v, h'))) : h.Touched h' := by
  rcases outcome_cases houtcome with
    rfl | ⟨target, key, v', hset⟩ | ⟨target, index, v', hset⟩ | ⟨target, hget⟩
  · exact .same
  · exact Operation.touched_setProperty hset
  · exact Operation.touched_setElement hset
  · exact Operation.touched_getIterator hget

namespace World

private theorem touched_callObject (w : World σ) (id : ObjectId) (this : Value) (args : List Value) :
    w.heap.Touched (w.callObject .absent id this args).2.heap := by
  unfold callObject
  split
  · exact .same
  · next f hf =>
    have hcallable : (w.heap.object id).isCallable = true := by
      rw [Object.isCallable, hf]
      rfl
    exact .call id hcallable

theorem touched_perform (w : World σ) (r : Request) : w.heap.Touched (r.perform .absent w).2.heap := by
  rcases r.outcome?_cases with ⟨callee, this, args, rfl⟩ | houtcome
  · simp only [Request.perform, callValue]
    split
    · exact touched_callObject w _ this args
    · split
      · exact .same
      · exact .same
  · obtain ⟨result, h⟩ := houtcome w.heap
    rw [Request.perform_of_outcome .absent h]
    cases result with
    | error e => exact .same
    | ok p => exact Request.touched_outcome h

end World

namespace Handler

private theorem touched_addSlot (w : World σ) (payload : Payload) (ops : Operands) :
    w.heap.Touched (addSlot w payload ops).2.heap := by
  unfold addSlot
  split
  · next id v =>
    split
    · next h hadd =>
      have heq : (w.heap.addSlot id _ _ v).2 = h := congrArg Prod.snd hadd
      exact heq ▸ .addSlot id _ _ v
    · split
      · exact .same
      · next key _ =>
        change w.heap.Touched (Operation.setProperty w.heap (.object id) key v).2
        rcases (Operation.keepsOnError_setProperty w.heap (.object id) key v).cases with heq | ⟨_, hset⟩
        · rw [heq]
          exact .same
        · exact Operation.touched_setProperty hset
  · exact .same
  · exact .same

/-- The code of a stub does what some operation may do. -/
theorem touched_run (signature : Signature) (stub : Stub) (ops : Operands) (w : World σ) :
    w.heap.Touched (run .absent signature stub ops w).2.heap := by
  cases signature with
  | addSlot => exact touched_addSlot w stub.payload ops
  | callFunction =>
    simp only [run]
    unfold callFunction
    split
    · exact World.touched_callObject w _ _ _
    · exact .same
    · exact .same
  | setPropSlot =>
    simp only [run]
    unfold writeSlot
    split
    · exact .setSlot _ _ _
    · exact .same
    · exact .same
  | setElemDense | setElemAppend =>
    simp only [run]
    unfold writeElement
    split
    · split
      · exact .setElement _ _ _
      · exact .same
    · exact .same
  | iterateArray =>
    simp only [run]
    unfold iterate
    split
    · exact .newArrayIterator _
    · exact .same
  | _ => exact .same

end Handler

/-- No operation does anything to a group. -/
theorem Heap.Touched.groups_eq {h h' : Heap} (htouched : h.Touched h') : h'.groups = h.groups := by
  cases htouched with
  | setNamed id key v => exact groups_setNamed h id key v
  | addSlot id old next v => exact groups_addSlot h id old next v
  | newArrayIterator target => exact groups_newArrayIterator h target
  | _ => rfl

end InlineCache
