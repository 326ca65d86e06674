import InlineCache.Cache.Stub
import InlineCache.Operation.Compare

namespace InlineCache

/-- What can be done about the operands of one use of an entry. -/
inductive Decision where
  /-- A stub for them can be built. -/
  | attach (recipe : Recipe)
  /-- They cannot be specialized. -/
  | noAction
  /-- They cannot be specialized now, but perhaps later; this is no failure. -/
  | temporarilyUnoptimizable
  /-- It takes the outcome of the operation to tell. -/
  | deferred
deriving DecidableEq, Inhabited

namespace Decision

def name : Decision → String
  | attach _ => "Attach"
  | noAction => "NoAction"
  | temporarilyUnoptimizable => "TemporarilyUnoptimizable"
  | deferred => "Deferred"

def recipe? : Decision → Option Recipe
  | attach recipe => some recipe
  | _ => none

/-- A stub that returns its result as it is. -/
def regular (signature : Signature) (payload : Payload) : Decision :=
  attach (.specialized signature .regular payload)

/-- A stub whose result is checked by type guards. -/
def monitored (signature : Signature) (payload : Payload) : Decision :=
  attach (.specialized signature .monitored payload)

end Decision

namespace Specialize

/-- The read of a property. Arrays answer for their length and elements in other ways, so a missing
property is never taken from the shape of an array. -/
def getProp (h : Heap) (target : Value) (key : PropertyKey) : Decision :=
  match target with
  | .string _ => if key = "length" then .monitored .getPropStringLength .none else .noAction
  | .object id =>
    let o := h.object id
    if (h.group o.group).preliminary then .temporarilyUnoptimizable
    else if o.cls = .array ∧ key = "length" then .monitored .getPropArrayLength .none
    else if o.cls = .array ∧ key.arrayIndex?.isSome then .noAction
    else
      match (h.shape o.shape).offsetOf? key with
      | some offset => .monitored .getPropSlot (.slot o.cls none o.shape offset)
      | none =>
        if o.cls = .array then .noAction else .monitored .getPropMissing (.shape o.cls o.shape)
  | _ => .noAction

/-- An array and an element of it that an integer names. -/
def denseTarget? (h : Heap) (target index : Value) : Option (ObjectId × Nat) :=
  match target, index with
  | .object id, .int32 i =>
    if (h.object id).cls = .array ∧ 0 ≤ i.toInt then some (id, i.toInt.toNat) else none
  | _, _ => none

def getElem (h : Heap) (target index : Value) : Decision :=
  match denseTarget? h target index with
  | some (id, n) =>
    if n < (h.object id).elements.size then .monitored .getElemDense .none else .noAction
  | none => .noAction

/-- The write of an element. Whether a write just past the end grows the array shows only afterwards. -/
def setElem (h : Heap) (target index : Value) : Decision :=
  match denseTarget? h target index with
  | some (id, n) =>
    if (h.groupOf id).preliminary then .temporarilyUnoptimizable
    else if n < (h.object id).elements.size then .regular .setElemDense .none
    else if n = (h.object id).elements.size then .deferred
    else .noAction
  | none => .noAction

/-- The second look at the write of an element, after it ran: it added the one element past the old
end. -/
def setElemAppend (h : Heap) (target index : Value) (oldSize : Nat) : Decision :=
  match denseTarget? h target index with
  | some (id, n) =>
    if n = oldSize ∧ (h.object id).elements.size = oldSize + 1 then .regular .setElemAppend .none
    else .noAction
  | none => .noAction

/-- The write of a property. The shape of an object that gains a property shows only afterwards. -/
def setProp (h : Heap) (target : Value) (key : PropertyKey) : Decision :=
  match target with
  | .object id =>
    let o := h.object id
    if (h.group o.group).preliminary then .temporarilyUnoptimizable
    else if o.cls = .array then .noAction
    else
      match (h.shape o.shape).offsetOf? key with
      | some offset =>
        .attach (.specialized .setPropSlot .updated (.slot o.cls (some o.group) o.shape offset))
      | none => if o.extensible then .deferred else .noAction
  | _ => .noAction

/-- The second look at the write of a property, after it ran: it moved the object from the old shape to
one that adds the key to it. -/
def addSlot (h : Heap) (target : Value) (key : PropertyKey) (old : ShapeId) : Decision :=
  match target with
  | .object id =>
    let o := h.object id
    let shape := h.shape o.shape
    if shape.parent = some old ∧ shape.key = some key then
      .attach (.specialized .addSlot .updated (.addSlot o.group old o.shape))
    else .noAction
  | _ => .noAction

/-- The test for a named property, which the shape of the object answers. -/
def hasNamed (h : Heap) (id : ObjectId) (key : PropertyKey) : Decision :=
  let o := h.object id
  .regular .hasOwnSlot (.hasProp o.shape key ((h.shape o.shape).offsetOf? key).isSome)

/-- The test `key in target`. -/
def hasProp (h : Heap) (key target : Value) : Decision :=
  match key, target with
  | .string name, .object id => if (h.object id).cls = .array then .noAction else hasNamed h id name
  | _, _ => .noAction

def hasOwn (h : Heap) (key target : Value) : Decision :=
  match key, target with
  | .int32 i, .object id =>
    if 0 ≤ i.toInt ∧ (h.object id).cls = .array then .regular .hasOwnElement .none else .noAction
  | .string name, .object id => if (h.object id).cls = .array then .noAction else hasNamed h id name
  | _, _ => .noAction

/-- The test against a constructor that has a prototype. -/
def instanceOf (h : Heap) (ctor : Value) : Decision :=
  match ctor with
  | .object id =>
    let o := h.object id
    if o.isCallable then
      match (h.shape o.shape).offsetOf? "prototype" with
      | some offset =>
        if (o.slot offset).asObject?.isSome then
          .regular .instanceOfFunction (.prototype id o.shape offset)
        else .noAction
      | none => .noAction
    else .noAction
  | _ => .noAction

/-- A call. A function that is running already may be about to change this very entry. -/
def call (h : Heap) (callee : Value) : Decision :=
  match callee with
  | .object id =>
    let o := h.object id
    if !o.isCallable then .noAction
    else if 0 < o.activeCalls then .temporarilyUnoptimizable
    else .monitored .callFunction (.callee id)
  | _ => .noAction

/-- Whether a value turns into a string without fail. -/
def isConcatOperand (v : Value) : Bool := v.isPrimitive && v.type != .symbol

/-- Whether two operands are added as strings without fail. -/
def isConcatPair (lhs rhs : Value) : Bool :=
  (lhs.type == .string || rhs.type == .string) && isConcatOperand lhs && isConcatOperand rhs

def binaryArith (op : BinaryOp) (lhs rhs : Value) : Decision :=
  if lhs.type = .int32 ∧ rhs.type = .int32 then .regular (.binaryInt32 op) .none
  else if lhs.isNumber && rhs.isNumber then .regular (.binaryDouble op) .none
  else if op = .add ∧ isConcatPair lhs rhs then .regular .concat .none
  else .noAction

def unaryArith (op : UnaryOp) (v : Value) : Decision :=
  match v with
  | .int32 _ => .regular (.unaryInt32 op) .none
  | .double _ => .regular (.unaryDouble op) .none
  | _ => .noAction

def compare (op : CompareOp) (lhs rhs : Value) : Decision :=
  if lhs.type = .int32 ∧ rhs.type = .int32 then .regular (.compareInt32 op) .none
  else if lhs.isNumber && rhs.isNumber then .regular (.compareDouble op) .none
  else if lhs.type = .string ∧ rhs.type = .string then .regular (.compareString op) .none
  else if op.isEquality && Operation.isNothing lhs && Operation.isNothing rhs then
    .regular (.compareNothing op) .none
  else .noAction

def toBool (v : Value) : Decision :=
  if v.type = .magic then .noAction else .regular (.toBool v.type) .none

def typeOf (v : Value) : Decision :=
  if v.isPrimitive then .regular (.typeOf v.type) .none else .noAction

def getIterator (h : Heap) (v : Value) : Decision :=
  match v with
  | .object id => if (h.object id).cls = .array then .regular .iterateArray .none else .noAction
  | _ => .noAction

end Specialize

end InlineCache
