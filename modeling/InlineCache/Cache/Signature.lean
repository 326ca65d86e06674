import InlineCache.Bytecode.Opcode
import InlineCache.Value

namespace InlineCache

/-- The kinds of type guards. -/
inductive GuardKind where
  | primitiveSet | singleObject | objectGroup | anyValue
deriving DecidableEq, Inhabited

namespace GuardKind

def all : List GuardKind := [primitiveSet, singleObject, objectGroup, anyValue]

def name : GuardKind → String
  | primitiveSet => "PrimitiveSet"
  | singleObject => "SingleObject"
  | objectGroup => "ObjectGroup"
  | anyValue => "AnyValue"

end GuardKind

/-- What a specialized stub does, apart from the shapes and objects it checks for. Stubs of one signature
share their compiled code and differ only in their payload. -/
inductive Signature where
  /-- The read of a property in a slot. -/
  | getPropSlot
  /-- The read of a property that the shape lacks. -/
  | getPropMissing
  | getPropArrayLength
  | getPropStringLength
  /-- The read of an element that is there. -/
  | getElemDense
  /-- The write of an element that is there. -/
  | setElemDense
  /-- The write of the element just past the end of an array. -/
  | setElemAppend
  /-- The write of a property in a slot. -/
  | setPropSlot
  /-- The write of a property that adds a slot. -/
  | addSlot
  /-- The call of one function. -/
  | callFunction
  | binaryInt32 (op : BinaryOp)
  | binaryDouble (op : BinaryOp)
  /-- The addition of a string to a string or a number. -/
  | concat
  | unaryInt32 (op : UnaryOp)
  | unaryDouble (op : UnaryOp)
  | compareInt32 (op : CompareOp)
  | compareDouble (op : CompareOp)
  | compareString (op : CompareOp)
  /-- The comparison of two operands that are `undefined` or `null`. -/
  | compareNothing (op : CompareOp)
  | toBool (type : ValueType)
  | typeOf (type : ValueType)
  | iterateArray
  /-- The test for a property, answered by the shape. -/
  | hasOwnSlot
  /-- The test for an element of an array. -/
  | hasOwnElement
  /-- The test against one constructor. -/
  | instanceOfFunction
  | typeGuard (kind : GuardKind)
deriving DecidableEq, Inhabited

namespace Signature

def all : List Signature :=
  [getPropSlot, getPropMissing, getPropArrayLength, getPropStringLength, getElemDense, setElemDense,
    setElemAppend, setPropSlot, addSlot, callFunction] ++
  BinaryOp.all.map binaryInt32 ++ BinaryOp.all.map binaryDouble ++ [concat] ++
  UnaryOp.all.map unaryInt32 ++ UnaryOp.all.map unaryDouble ++
  CompareOp.all.map compareInt32 ++ CompareOp.all.map compareDouble ++
  CompareOp.all.map compareString ++ CompareOp.all.map compareNothing ++
  ValueType.all.map toBool ++ ValueType.all.map typeOf ++
  [iterateArray, hasOwnSlot, hasOwnElement, instanceOfFunction] ++ GuardKind.all.map typeGuard

/-- A signature as messages show it. -/
def debugText : Signature → String
  | getPropSlot => "GetPropSlot"
  | getPropMissing => "GetPropMissing"
  | getPropArrayLength => "GetPropArrayLength"
  | getPropStringLength => "GetPropStringLength"
  | getElemDense => "GetElemDense"
  | setElemDense => "SetElemDense"
  | setElemAppend => "SetElemAppend"
  | setPropSlot => "SetPropSlot"
  | addSlot => "AddSlot"
  | callFunction => "CallFunction"
  | binaryInt32 op => "BinaryArithInt32(" ++ op.name ++ ")"
  | binaryDouble op => "BinaryArithDouble(" ++ op.name ++ ")"
  | concat => "BinaryArithStringConcat"
  | unaryInt32 op => "UnaryArithInt32(" ++ op.name ++ ")"
  | unaryDouble op => "UnaryArithDouble(" ++ op.name ++ ")"
  | compareInt32 op => "CompareInt32(" ++ op.name ++ ")"
  | compareDouble op => "CompareDouble(" ++ op.name ++ ")"
  | compareString op => "CompareString(" ++ op.name ++ ")"
  | compareNothing op => "CompareNullUndefined(" ++ op.name ++ ")"
  | toBool type => "ToBool(" ++ type.name ++ ")"
  | typeOf type => "TypeOf(" ++ type.name ++ ")"
  | iterateArray => "GetIteratorArray"
  | hasOwnSlot => "HasOwnSlot"
  | hasOwnElement => "HasOwnDenseElement"
  | instanceOfFunction => "InstanceOfFunction"
  | typeGuard kind => "TypeGuard(" ++ kind.name ++ ")"

def ofText? (s : String) : Option Signature := all.find? (·.debugText = s)

end Signature

end InlineCache
