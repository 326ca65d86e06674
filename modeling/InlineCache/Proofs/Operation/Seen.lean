import InlineCache.Proofs.Heap.Seen
import InlineCache.Proofs.Request.Outcome

namespace InlineCache

namespace Heap

@[simp] theorem shapeOf_seen (h : Heap) (id : ObjectId) : h.seen.shapeOf id = h.shapeOf id := rfl

@[simp] theorem getOwn?_seen (h : Heap) (id : ObjectId) (key : PropertyKey) :
    h.seen.getOwn? id key = h.getOwn? id key := rfl

@[simp] theorem debugText_seen (h : Heap) (v : Value) : h.seen.debugText v = h.debugText v := by
  cases v <;> rfl

private theorem transition_seen (h : Heap) (id : ShapeId) (key : PropertyKey) :
    h.seen.transition id key = ((h.transition id key).1, (h.transition id key).2.seen) := by
  unfold transition
  rw [shape_seen]
  split <;> rfl

private theorem setNamed_seen (h : Heap) (id : ObjectId) (key : PropertyKey) (v : Value) :
    h.seen.setNamed id key v = ((h.setNamed id key v).1, (h.setNamed id key v).2.seen) := by
  unfold setNamed
  simp only [shapeOf_seen, object_seen, transition_seen]
  split
  · rfl
  · split <;> rfl

private theorem newArrayIterator_seen (h : Heap) (target : ObjectId) :
    h.seen.newArrayIterator target =
      ((h.newArrayIterator target).1, (h.newArrayIterator target).2.seen) := by
  have hadd (o : Object) : h.seen.addObject o = ((h.addObject o).1, (h.addObject o).2.seen) := rfl
  simp only [newArrayIterator, setAll, List.foldl_cons, List.foldl_nil, hadd, setNamed_seen]

end Heap

namespace Operation

@[simp] theorem textWithin_seen (h : Heap) (depth : Nat) (v : Value) :
    textWithin h.seen depth v = textWithin h depth v := by
  induction depth generalizing v with
  | zero => cases v <;> simp only [textWithin, Heap.object_seen]
  | succ depth ih =>
    cases v with
    | object id =>
      simp only [textWithin, Heap.object_seen]
      split
      · refine congrArg (fun part => (do
          let parts ← List.mapM part (h.object id).elements.toList
          return ",".intercalate parts : Except VmError String)) (funext fun element => ?_)
        cases element with
        | undefined | null => rfl
        | _ => exact ih _
      · rfl
      · rfl
      · rfl
    | _ => simp only [textWithin]

@[simp] theorem toText_seen (h : Heap) (v : Value) : toText h.seen v = toText h v :=
  textWithin_seen h _ v

@[simp] theorem toPropertyKey_seen (h : Heap) (v : Value) : toPropertyKey h.seen v = toPropertyKey h v :=
  toText_seen h v

@[simp] theorem describe_seen (h : Heap) (v : Value) : describe h.seen v = describe h v := by
  unfold describe
  simp only [toText_seen, Heap.debugText_seen]

@[simp] theorem objectProperty_seen (h : Heap) (id : ObjectId) (key : PropertyKey) :
    objectProperty h.seen id key = objectProperty h id key := rfl

@[simp] theorem getProperty_seen (h : Heap) (target : Value) (key : PropertyKey) :
    getProperty h.seen target key = getProperty h target key := by
  cases target <;> simp only [getProperty, describe_seen, objectProperty_seen]

@[simp] theorem arrayElement?_seen (h : Heap) (target index : Value) :
    arrayElement? h.seen target index = arrayElement? h target index := by
  cases target <;> rfl

@[simp] theorem getElement_seen (h : Heap) (target index : Value) :
    getElement h.seen target index = getElement h target index := by
  simp only [getElement, arrayElement?_seen, describe_seen, toPropertyKey_seen, getProperty_seen]
  rfl

@[simp] theorem objectHasOwn_seen (h : Heap) (id : ObjectId) (key : PropertyKey) :
    objectHasOwn h.seen id key = objectHasOwn h id key := rfl

@[simp] theorem hasProperty_seen (h : Heap) (key target : Value) :
    hasProperty h.seen key target = hasProperty h key target := by
  cases target <;> simp only [hasProperty, describe_seen, toPropertyKey_seen, objectHasOwn_seen]

@[simp] theorem hasOwn_seen (h : Heap) (key target : Value) :
    hasOwn h.seen key target = hasOwn h key target := by
  cases target <;> simp only [hasOwn, describe_seen, toPropertyKey_seen, objectHasOwn_seen]

@[simp] theorem inheritsFrom_seen (h : Heap) (v : Value) (proto : ObjectId) :
    inheritsFrom h.seen v proto = inheritsFrom h v proto := by
  have hproto (id : ObjectId) : prototype? h.seen id = prototype? h id := by
    simp only [prototype?, Heap.groupOf_seen, Group.seen]
  have hwithin (steps : Nat) (id : ObjectId) :
      inheritsWithin h.seen proto steps id = inheritsWithin h proto steps id := by
    induction steps generalizing id with
    | zero => rfl
    | succ steps ih => simp only [inheritsWithin, hproto, ih]
  cases v with
  | object id => simp only [inheritsFrom, Heap.size_groups_seen, hwithin]
  | _ => rfl

@[simp] theorem instanceOf_seen (h : Heap) (v ctor : Value) :
    instanceOf h.seen v ctor = instanceOf h v ctor := by
  simp only [instanceOf, Heap.object_seen, Heap.getOwn?_seen, describe_seen, inheritsFrom_seen]

@[simp] theorem typeOf_seen (h : Heap) (v : Value) : typeOf h.seen v = typeOf h v := by
  cases v <;> rfl

@[simp] theorem binaryArith_seen (h : Heap) (op : BinaryOp) (lhs rhs : Value) :
    binaryArith h.seen op lhs rhs = binaryArith h op lhs rhs := by
  simp only [binaryArith, concat, toText_seen]

private theorem given_seen {α β : Type} (h : Heap) (found : Except VmError α)
    {f f' : α → Except VmError β × Heap} (hf : ∀ a, f' a = (f a).map id Heap.seen) :
    given h.seen found f' = (given h found f).map id Heap.seen := by
  cases found with
  | error e => rfl
  | ok a => exact hf a

private theorem setObjectProperty_seen (h : Heap) (object : ObjectId) (key : PropertyKey) (v : Value) :
    setObjectProperty h.seen object key v = (setObjectProperty h object key v).map id Heap.seen := by
  have hnamed : setNamedProperty h.seen object key v = (setNamedProperty h object key v).seen := by
    rw [setNamedProperty, setNamedProperty, Heap.setNamed_seen]
  unfold setObjectProperty
  rw [Heap.object_seen, hnamed]
  split
  · split
    · exact given_seen h _ fun len => rfl
    · split <;> rfl
  · rfl

private theorem setProperty_seen (h : Heap) (target : Value) (key : PropertyKey) (v : Value) :
    setProperty h.seen target key v = (setProperty h target key v).map id Heap.seen := by
  cases target with
  | object id => exact setObjectProperty_seen h id key v
  | undefined | null =>
    simp only [setProperty, describe_seen]
    exact given_seen h _ fun text => rfl
  | _ => rfl

private theorem setElement_seen (h : Heap) (target index v : Value) :
    setElement h.seen target index v = (setElement h target index v).map id Heap.seen := by
  simp only [setElement, arrayElement?_seen, describe_seen, toPropertyKey_seen]
  split
  · rfl
  · split
    · exact given_seen h _ fun text => given_seen h _ fun key => rfl
    · exact given_seen h _ fun key => setProperty_seen h target key v

private theorem getIterator_seen (h : Heap) (v : Value) :
    getIterator h.seen v = (getIterator h v).map id Heap.seen := by
  cases htarget : v.asObject?.filter fun id => (h.object id).cls = .array with
  | some id =>
    have htarget' : (v.asObject?.filter fun id => (h.seen.object id).cls = .array) = some id := htarget
    simp only [getIterator, htarget, htarget', Heap.newArrayIterator_seen]
    rfl
  | none =>
    have htarget' : (v.asObject?.filter fun id => (h.seen.object id).cls = .array) = none := htarget
    simp only [getIterator, htarget, htarget', describe_seen]
    exact given_seen h _ fun text => rfl

private theorem settled_seen {α : Type} (done : Except VmError α × Heap) :
    settled (done.map id Heap.seen) = (settled done).map fun p => (p.1, p.2.seen) := by
  obtain ⟨result, h⟩ := done
  cases result <;> rfl

end Operation

namespace Request

/-- What a request comes to on a heap, as scripts see it. -/
theorem outcome?_seen (h : Heap) (r : Request) :
    r.outcome? h.seen = (r.outcome? h).map fun result => result.map fun p => (p.1, p.2.seen) := by
  have hkeep {α : Type} (e : Except VmError α) (f : α → Value) :
      (e.map fun a => (f a, h.seen)) = (e.map fun a => (f a, h)).map fun p => (p.1, p.2.seen) := by
    cases e <;> rfl
  cases r with
  | call callee this args => rfl
  | setProp target key v =>
    simp only [outcome?, Operation.setProperty_seen]
    exact congrArg some (Operation.settled_seen (Operation.giving v _))
  | setElem target index v =>
    simp only [outcome?, Operation.setElement_seen]
    exact congrArg some (Operation.settled_seen (Operation.giving v _))
  | getIterator v =>
    simp only [outcome?, Operation.getIterator_seen]
    exact congrArg some (Operation.settled_seen _)
  | toBool v => rfl
  | typeOf v => simp only [outcome?, Operation.typeOf_seen, Option.map_some, Except.map]
  | _ =>
    simp only [outcome?, Option.map_some, ← hkeep, Operation.binaryArith_seen,
      Operation.getProperty_seen, Operation.getElement_seen, Operation.hasProperty_seen,
      Operation.hasOwn_seen, Operation.instanceOf_seen]

end Request

end InlineCache
