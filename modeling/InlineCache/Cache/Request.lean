import InlineCache.Cache.Handler

namespace InlineCache

/-- The operation of an entry together with its operands. It can be performed in full, without any stub, and
it says which stub would have answered it: some look before the operation ran, some again after it. -/
inductive Request where
  | toBool (v : Value)
  | unaryArith (op : UnaryOp) (v : Value)
  | binaryArith (op : BinaryOp) (lhs rhs : Value)
  | compare (op : CompareOp) (lhs rhs : Value)
  | getProp (target : Value) (key : PropertyKey)
  | setProp (target : Value) (key : PropertyKey) (v : Value)
  | getElem (target index : Value)
  | setElem (target index v : Value)
  /-- The test `key in target`. -/
  | hasProp (key target : Value)
  | hasOwn (key target : Value)
  | instanceOf (v ctor : Value)
  | call (callee this : Value) (args : List Value)
  | typeOf (v : Value)
  | getIterator (v : Value)
deriving DecidableEq, Inhabited

/-- The request that operands make of an operation; none if they are too many or too few. -/
def SiteOperation.request? (op : SiteOperation) (ops : Operands) : Option Request :=
  match op, ops with
  | .toBool, .unary v => some (.toBool v)
  | .unaryArith op, .unary v => some (.unaryArith op v)
  | .binaryArith op, .binary lhs rhs => some (.binaryArith op lhs rhs)
  | .compare op, .binary lhs rhs => some (.compare op lhs rhs)
  | .getProp key, .unary target => some (.getProp target key)
  | .setProp key, .binary target v => some (.setProp target key v)
  | .getElem, .binary target index => some (.getElem target index)
  | .setElem, .ternary target index v => some (.setElem target index v)
  | .hasProp, .binary key target => some (.hasProp key target)
  | .hasOwn, .binary key target => some (.hasOwn key target)
  | .instanceOf, .binary v ctor => some (.instanceOf v ctor)
  | .call, .call callee this args => some (.call callee this args)
  | .typeOf, .unary v => some (.typeOf v)
  | .getIterator, .unary v => some (.getIterator v)
  | _, _ => none

/-- The key that the operation of an entry works on, if its instruction fixes one. -/
def SiteOperation.key? : SiteOperation → Option PropertyKey
  | .getProp key | .setProp key => some key
  | _ => none

namespace Request

variable {σ : Type}

/-- Performs the operation in full. The result of a write is the value written. -/
def perform (natives : Natives σ) (r : Request) (w : World σ) : Except VmError Value × World σ :=
  match r with
  | toBool v => (.ok (.boolean (Operation.toBoolean v)), w)
  | unaryArith op v => (Operation.unaryArith op v, w)
  | binaryArith op lhs rhs => (Operation.binaryArith w.heap op lhs rhs, w)
  | compare op lhs rhs => ((Operation.compare op lhs rhs).map .boolean, w)
  | getProp target key => (Operation.getProperty w.heap target key, w)
  | setProp target key v =>
    w.onHeap fun h => Operation.giving v (Operation.setProperty h target key v)
  | getElem target index => (Operation.getElement w.heap target index, w)
  | setElem target index v =>
    w.onHeap fun h => Operation.giving v (Operation.setElement h target index v)
  | hasProp key target => ((Operation.hasProperty w.heap key target).map .boolean, w)
  | hasOwn key target => ((Operation.hasOwn w.heap key target).map .boolean, w)
  | instanceOf v ctor => ((Operation.instanceOf w.heap v ctor).map .boolean, w)
  | call callee this args => w.callValue natives callee this args
  | typeOf v => (.ok (.string (Operation.typeOf w.heap v)), w)
  | getIterator v => w.onHeap (Operation.getIterator · v)

/-- The stub that would answer the request, as far as that shows before the operation ran. -/
def decision (h : Heap) : Request → Decision
  | toBool v => Specialize.toBool v
  | unaryArith op v => Specialize.unaryArith op v
  | binaryArith op lhs rhs => Specialize.binaryArith op lhs rhs
  | compare op lhs rhs => Specialize.compare op lhs rhs
  | getProp target key => Specialize.getProp h target key
  | setProp target key _ => Specialize.setProp h target key
  | getElem target index => Specialize.getElem h target index
  | setElem target index _ => Specialize.setElem h target index
  | hasProp key target => Specialize.hasProp h key target
  | hasOwn key target => Specialize.hasOwn h key target
  | instanceOf _ ctor => Specialize.instanceOf h ctor
  | call callee _ _ => Specialize.call h callee
  | typeOf v => Specialize.typeOf v
  | getIterator v => Specialize.getIterator h v

/-- The stub that would answer a write, given the heap before and after the operation ran. -/
def secondLook (before after : Heap) : Request → Decision
  | setProp (.object id) key _ => Specialize.addSlot after (.object id) key (before.object id).shape
  | setElem (.object id) index _ =>
    Specialize.setElemAppend after (.object id) index (before.object id).elements.size
  | _ => .noAction

/-- Whether a stub is attached only once the operation has succeeded. -/
def attachesAfter : Request → Bool
  | unaryArith _ _ | binaryArith _ _ _ | compare _ _ _ => true
  | _ => false

/-- Whether the result goes through the type guards of the entry. -/
def isMonitored : Request → Bool
  | getProp _ _ | getElem _ _ | call _ _ _ => true
  | _ => false

/-- The property whose type guards are shown the value of a write: one that is named, of an object that
is no array. The name of an element may fail to be a text. -/
def write? (h : Heap) : Request → Except VmError (Option (GroupId × PropertyKey × Value))
  | setProp (.object id) key v =>
    .ok (if (h.object id).cls = .array then none else some ((h.object id).group, key, v))
  | setElem (.object id) index v =>
    if (h.object id).cls = .array then .ok none
    else (Operation.toPropertyKey h index).map fun key => some ((h.object id).group, key, v)
  | _ => .ok none

/-- Whether a result is a double of binary arithmetic. -/
def gaveDouble (r : Request) (result : Value) : Bool :=
  match r with
  | binaryArith _ _ _ => result.type == .double
  | _ => false

end Request

end InlineCache
