import InlineCache.Operation.Property

namespace InlineCache.Operation

/-- The prototype of an object, which is that of its group. -/
def prototype? (h : Heap) (id : ObjectId) : Option ObjectId := (h.groupOf id).proto

/-- Whether an object is among the first `steps` prototypes of another. -/
def inheritsWithin (h : Heap) (proto : ObjectId) : Nat → ObjectId → Bool
  | 0, _ => false
  | steps + 1, id =>
    match prototype? h id with
    | some next => next = proto || inheritsWithin h proto steps next
    | none => false

/-- Whether an object is on the chain of prototypes of a value. Every step leads to an older group, so
the chain is no longer than the table of groups. -/
def inheritsFrom (h : Heap) (v : Value) (proto : ObjectId) : Bool :=
  match v with
  | .object id => inheritsWithin h proto h.groups.size id
  | _ => false

def isCallable (h : Heap) : Value → Bool
  | .object id => (h.object id).isCallable
  | _ => false

def instanceOf (h : Heap) (v ctor : Value) : Except VmError Bool :=
  match ctor.asObject?.filter fun id => (h.object id).isCallable with
  | none => do throw (.notConstructor (← describe h ctor))
  | some ctor =>
    if v.asObject?.isNone then .ok false
    else
      match h.getOwn? ctor "prototype" with
      | some (.object proto) => .ok (inheritsFrom h v proto)
      | _ => .error .noPrototype

/-- A new iterator over an array, with the heap that it is in. -/
def getIterator (h : Heap) (v : Value) : Except VmError Value × Heap :=
  match v.asObject?.filter fun id => (h.object id).cls = .array with
  | some id =>
    let (iterator, h) := h.newArrayIterator id
    (.ok (.object iterator), h)
  | none => given h (describe h v) fun text => (.error (.notIterable text), h)

end InlineCache.Operation
