import InlineCache.Cache.Operands
import InlineCache.Cache.Specialize

namespace InlineCache

namespace Guard

/-- Two integers. -/
def int32Pair? : Operands → Option (Int32 × Int32)
  | .binary (.int32 a) (.int32 b) => some (a, b)
  | _ => none

/-- Two numbers. -/
def numberPair? : Operands → Option (Double × Double)
  | .binary a b => a.asNumber?.bind fun a => b.asNumber?.map fun b => (a, b)
  | _ => none

/-- Two strings. -/
def stringPair? : Operands → Option (String × String)
  | .binary (.string a) (.string b) => some (a, b)
  | _ => none

/-- The integer of a single operand. -/
def int32? : Operands → Option Int32
  | .unary (.int32 i) => some i
  | _ => none

/-- The object of a single operand. -/
def object? (ops : Operands) : Option ObjectId := ops.unary?.bind Value.asObject?

/-- Whether a single operand is an array. -/
def isArray (h : Heap) (ops : Operands) : Bool :=
  (object? ops).any fun id => (h.object id).cls == .array

/-- A slot is read from objects of one class and one shape. -/
def readSlot (h : Heap) (payload : Payload) (ops : Operands) : Bool :=
  match payload, object? ops with
  | .slot cls _ shape _, some id => (h.object id).cls == cls && (h.object id).shape == shape
  | _, _ => false

/-- A property is missing from objects of one class and one shape. Arrays do not count, since their
length and elements are in no shape. -/
def readMissing (h : Heap) (payload : Payload) (ops : Operands) : Bool :=
  match payload, object? ops with
  | .shape cls shape, some id =>
    cls != .array && (h.object id).cls == cls && (h.object id).shape == shape
  | _, _ => false

/-- The array and the place of an element that is read. -/
def elementRead? (h : Heap) (ops : Operands) : Option (ObjectId × Nat) :=
  match ops with
  | .binary target index => Specialize.denseTarget? h target index
  | _ => none

/-- The array and the place of an element that is written. -/
def elementWrite? (h : Heap) (ops : Operands) : Option (ObjectId × Nat) :=
  match ops with
  | .ternary target index _ => Specialize.denseTarget? h target index
  | _ => none

/-- A slot is written to objects of one group and one shape. -/
def writeSlot (h : Heap) (payload : Payload) (ops : Operands) : Bool :=
  match payload, ops with
  | .slot _ (some group) shape _, .binary (.object id) _ =>
    (h.object id).group == group && (h.object id).shape == shape
  | _, _ => false

/-- A slot is added to extensible objects of one group and one shape. -/
def addSlot (h : Heap) (payload : Payload) (ops : Operands) : Bool :=
  match payload, ops with
  | .addSlot group old _, .binary (.object id) _ =>
    (h.object id).group == group && (h.object id).shape == old && (h.object id).extensible
  | _, _ => false

/-- One function is called. -/
def callee (payload : Payload) (ops : Operands) : Bool :=
  match payload, ops with
  | .callee function, .call (.object id) _ _ => id == function
  | _, _ => false

/-- A string is added to something that turns into a string without fail. -/
def concat (ops : Operands) : Bool :=
  ops.binary?.any fun (lhs, rhs) => Specialize.isConcatPair lhs rhs

/-- Both operands are `undefined` or `null`. -/
def nothings (ops : Operands) : Bool :=
  ops.binary?.any fun (lhs, rhs) => Operation.isNothing lhs && Operation.isNothing rhs

/-- A single operand has a type. -/
def hasType (type : ValueType) (ops : Operands) : Bool := ops.unary?.any (·.type == type)

/-- One key is looked for in objects of one shape. Arrays do not count. -/
def namedKey (h : Heap) (payload : Payload) (ops : Operands) : Bool :=
  match payload, ops with
  | .hasProp shape key _, .binary (.string name) (.object id) =>
    name == key && (h.object id).cls != .array && (h.object id).shape == shape
  | _, _ => false

/-- An element is looked for in an array. -/
def elementKey (h : Heap) (ops : Operands) : Bool :=
  match ops with
  | .binary key target => (Specialize.denseTarget? h target key).isSome
  | _ => false

/-- One constructor of unchanged shape is tested against. -/
def constructor (h : Heap) (payload : Payload) (ops : Operands) : Bool :=
  match payload, ops with
  | .prototype ctor shape _, .binary _ (.object id) => id == ctor && (h.object id).shape == shape
  | _, _ => false

/-- The value is accepted by the type guard of the stub. -/
def typeGuard (h : Heap) (stub : Stub) (ops : Operands) : Bool := ops.unary?.any (stub.acceptsValue h)

/-- Whether code of a signature may run a stub on some operands. A guard looks at the operands as they are
now; it reads the heap and changes nothing. -/
def holds (h : Heap) (signature : Signature) (stub : Stub) (ops : Operands) : Bool :=
  match signature with
  | .getPropSlot => readSlot h stub.payload ops
  | .getPropMissing => readMissing h stub.payload ops
  | .getPropArrayLength | .iterateArray => isArray h ops
  | .getPropStringLength => hasType .string ops
  | .getElemDense => (elementRead? h ops).any fun (id, n) => n < (h.object id).elements.size
  | .setElemDense => (elementWrite? h ops).any fun (id, n) => n < (h.object id).elements.size
  | .setElemAppend => (elementWrite? h ops).any fun (id, n) => n == (h.object id).elements.size
  | .setPropSlot => writeSlot h stub.payload ops
  | .addSlot => addSlot h stub.payload ops
  | .callFunction => callee stub.payload ops
  | .binaryInt32 _ | .compareInt32 _ => (int32Pair? ops).isSome
  | .binaryDouble _ | .compareDouble _ => (numberPair? ops).isSome
  | .concat => concat ops
  | .unaryInt32 _ => (int32? ops).isSome
  | .unaryDouble _ => ops.unary?.any Value.isNumber
  | .compareString _ => (stringPair? ops).isSome
  | .compareNothing op => op.isEquality && nothings ops
  | .toBool type => type != .magic && hasType type ops
  | .typeOf type => type.isPrimitive && hasType type ops
  | .hasOwnSlot => namedKey h stub.payload ops
  | .hasOwnElement => elementKey h ops
  | .instanceOfFunction => constructor h stub.payload ops
  | .typeGuard _ => typeGuard h stub ops

end Guard

end InlineCache
