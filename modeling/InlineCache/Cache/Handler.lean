import InlineCache.Cache.Guard
import InlineCache.Operation.Arith
import InlineCache.World

namespace InlineCache

namespace Handler

variable {σ : Type}

/-- A result found without changing anything, unless the operands are not those of the signature. -/
def answer (w : World σ) (signature : Signature) (result : Option Value) :
    Except VmError Value × World σ :=
  (match result with
    | some v => .ok v
    | none => .error (.unguardedStub signature), w)

/-- The slot of an object that the payload names. -/
def readSlot (h : Heap) (payload : Payload) (ops : Operands) :
    Except VmError Value :=
  match payload, Guard.object? ops with
  | .slot _ _ _ offset, some id => .ok ((h.object id).slot offset)
  | .slot _ _ _ _, none => .error (.unguardedStub .getPropSlot)
  | _, _ => .error (.mismatchedPayload .getPropSlot)

/-- The element of an object at an integer. -/
def readElement? (h : Heap) (ops : Operands) : Option Value :=
  match ops with
  | .binary (.object id) (.int32 i) =>
    some (if 0 ≤ i.toInt then Operation.element h id i.toInt.toNat else .undefined)
  | _ => none

/-- Writes the element of an object at an integer that is not negative. -/
def writeElement (w : World σ) (signature : Signature) (ops : Operands) :
    Except VmError Value × World σ :=
  match ops with
  | .ternary (.object id) (.int32 i) v =>
    if 0 ≤ i.toInt then
      (.ok v, w.mapHeap fun h => Operation.setArrayElement h id i.toInt.toNat v)
    else (.error (.unguardedStub signature), w)
  | _ => (.error (.unguardedStub signature), w)

/-- Writes the slot of an object that the payload names. -/
def writeSlot (w : World σ) (payload : Payload) (ops : Operands) : Except VmError Value × World σ :=
  match payload, ops with
  | .slot _ _ _ offset, .binary (.object id) v =>
    (.ok v, w.mapHeap fun h => h.modifyObject id (·.setSlot offset v))
  | .slot _ _ _ _, _ => (.error (.unguardedStub .setPropSlot), w)
  | _, _ => (.error (.mismatchedPayload .setPropSlot), w)

/-- Writes a property that the object does not have in the shape the stub was built for. An object that
has changed since is written to in full. -/
def addSlot (w : World σ) (payload : Payload) (ops : Operands) : Except VmError Value × World σ :=
  match payload, ops with
  | .addSlot _ old new, .binary (.object id) v =>
    match w.heap.addSlot id old new v with
    | (true, h) => (.ok v, { w with heap := h })
    | (false, _) =>
      match (w.heap.shape new).key with
      | none => (.error (.unguardedStub .addSlot), w)
      | some key =>
        w.onHeap fun h => Operation.giving v (Operation.setProperty h (.object id) key v)
  | .addSlot _ _ _, _ => (.error (.unguardedStub .addSlot), w)
  | _, _ => (.error (.mismatchedPayload .addSlot), w)

def callFunction (natives : Natives σ) (w : World σ) (payload : Payload) (ops : Operands) :
    Except VmError Value × World σ :=
  match payload, ops with
  | .callee id, .call _ this args => w.callObject natives id this args
  | .callee _, _ => (.error (.unguardedStub .callFunction), w)
  | _, _ => (.error (.mismatchedPayload .callFunction), w)

/-- A result for two operands. -/
def ofBinary (signature : Signature) (ops : Operands) (f : Value → Value → Except VmError Value) :
    Except VmError Value :=
  match ops with
  | .binary a b => f a b
  | _ => .error (.unguardedStub signature)

/-- A new iterator over an object. -/
def iterate (w : World σ) (ops : Operands) : Except VmError Value × World σ :=
  match Guard.object? ops with
  | some id =>
    let (iterator, w) := w.onHeap (·.newArrayIterator id)
    (.ok (.object iterator), w)
  | none => (.error (.unguardedStub .iterateArray), w)

/-- What the payload says of a key. -/
def hasOwnSlot (payload : Payload) : Except VmError Value :=
  match payload with
  | .hasProp _ _ present => .ok (.boolean present)
  | _ => .error (.mismatchedPayload .hasOwnSlot)

/-- Whether an object has an element at an integer. -/
def hasElement? (h : Heap) (ops : Operands) : Option Value :=
  match ops with
  | .binary (.int32 i) (.object id) =>
    some (.boolean (decide (0 ≤ i.toInt ∧ i.toInt < (h.object id).elements.size)))
  | _ => none

/-- The prototype of the constructor is read from its slot. Values that are no objects, and a prototype
that was overwritten, go the long way. -/
def instanceOf (h : Heap) (payload : Payload) (ops : Operands) : Except VmError Value :=
  match payload with
  | .prototype ctor _ offset =>
    ofBinary .instanceOfFunction ops fun v rhs =>
      match v.asObject?, (h.object ctor).slot offset with
      | some _, .object proto => .ok (.boolean (Operation.inheritsFrom h v proto))
      | _, _ => (Operation.instanceOf h v rhs).map .boolean
  | _ => .error (.mismatchedPayload .instanceOfFunction)

/-- Runs code of a signature for a stub whose guard held. Code that runs without its guard, or with a payload
made for another signature, fails with an error. -/
def run (natives : Natives σ) (signature : Signature) (stub : Stub) (ops : Operands) (w : World σ) :
    Except VmError Value × World σ :=
  match signature with
  | .getPropSlot => (readSlot w.heap stub.payload ops, w)
  | .getPropMissing => (.ok .undefined, w)
  | .getPropArrayLength =>
    answer w signature ((Guard.object? ops).map fun id =>
      .int32 (Int32.ofInt (w.heap.object id).elements.size))
  | .getPropStringLength =>
    answer w signature ((ops.unary?.bind Value.asString?).map fun s =>
      .int32 (Int32.ofInt (Text.unitCount s)))
  | .getElemDense => answer w signature (readElement? w.heap ops)
  | .setElemDense | .setElemAppend => writeElement w signature ops
  | .setPropSlot => writeSlot w stub.payload ops
  | .addSlot => addSlot w stub.payload ops
  | .callFunction => callFunction natives w stub.payload ops
  | .binaryInt32 op =>
    answer w signature ((Guard.int32Pair? ops).map fun (a, b) => Operation.int32Arith op a b)
  | .binaryDouble op =>
    answer w signature ((Guard.numberPair? ops).map fun (a, b) => Operation.doubleArith op a b)
  | .concat => (ofBinary signature ops (Operation.concat w.heap), w)
  | .unaryInt32 op => answer w signature ((Guard.int32? ops).map (Operation.int32Unary op))
  | .unaryDouble op =>
    answer w signature ((ops.unary?.bind Value.asNumber?).map (Operation.doubleUnary op))
  | .compareInt32 op =>
    answer w signature ((Guard.int32Pair? ops).map fun (a, b) =>
      .boolean (Operation.compareNumbers op (Value.doubleOfInt32 a) (Value.doubleOfInt32 b)))
  | .compareDouble op =>
    answer w signature ((Guard.numberPair? ops).map fun (a, b) =>
      .boolean (Operation.compareNumbers op a b))
  | .compareString op =>
    answer w signature ((Guard.stringPair? ops).map fun (a, b) =>
      .boolean (Operation.compareStrings op a b))
  | .compareNothing op =>
    (ofBinary signature ops fun a b => (Operation.compare op a b).map .boolean, w)
  | .toBool _ =>
    answer w signature (ops.unary?.map fun v => .boolean (Operation.toBoolean v))
  | .typeOf _ => answer w signature (ops.unary?.map fun v => .string (Operation.typeOf w.heap v))
  | .iterateArray => iterate w ops
  | .hasOwnSlot => (hasOwnSlot stub.payload, w)
  | .hasOwnElement => answer w signature (hasElement? w.heap ops)
  | .instanceOfFunction => (instanceOf w.heap stub.payload ops, w)
  | .typeGuard _ => answer w signature ops.unary?

/-- Runs the code of a stub if its guard holds. -/
def invoke (natives : Natives σ) (signature : Signature) (stub : Stub) (ops : Operands)
    (w : World σ) : Option (Except VmError Value × World σ) :=
  if Guard.holds w.heap signature stub ops then some (run natives signature stub ops w) else none

end Handler

end InlineCache
