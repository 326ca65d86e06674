import InlineCache.Number.Double

namespace InlineCache

/-- Sentinels that the interpreter keeps in slots and never hands to scripts. -/
inductive Magic where
  /-- A binding that is read before it is initialized. -/
  | uninitializedLexical
  /-- A value that an optimized frame did not keep alive. -/
  | optimizedOut
deriving DecidableEq, Inhabited

def Magic.name : Magic → String
  | uninitializedLexical => "UninitializedLexical"
  | optimizedOut => "OptimizedOut"

abbrev ObjectId := Nat

/-- The tag of a value's type. -/
inductive ValueType where
  | undefined | null | boolean | int32 | double | string | symbol | object | magic
deriving DecidableEq, Inhabited

namespace ValueType

def all : List ValueType :=
  [undefined, null, boolean, int32, double, string, symbol, object, magic]

def name : ValueType → String
  | undefined => "Undefined"
  | null => "Null"
  | boolean => "Boolean"
  | int32 => "Int32"
  | double => "Double"
  | string => "String"
  | symbol => "Symbol"
  | object => "Object"
  | magic => "Magic"

def ofName? (s : String) : Option ValueType := all.find? (·.name = s)

/-- The place of the tag in the order of tags. -/
def index : ValueType → Nat
  | undefined => 0
  | null => 1
  | boolean => 2
  | int32 => 3
  | double => 4
  | string => 5
  | symbol => 6
  | object => 7
  | magic => 8

/-- Whether values of the type are primitive: neither objects nor sentinels. -/
def isPrimitive : ValueType → Bool
  | object | magic => false
  | _ => true

end ValueType

/-- Script values. A number is held as a 32-bit integer or as a double; `Value.number` chooses the integer
whenever it is exact. Two values are the same exactly when they are equal as data, representation
included. -/
inductive Value where
  | undefined
  | null
  | boolean (b : Bool)
  | int32 (i : Int32)
  | double (d : Double)
  | string (s : String)
  /-- A symbol, known by its number. -/
  | symbol (id : UInt32)
  | object (id : ObjectId)
  | magic (kind : Magic)
deriving DecidableEq, Inhabited

namespace Value

/-- Whether a number is a 32-bit integer without loss. Negative zero is not. -/
def isExactInt32 (d : Double) : Bool :=
  d.isIntegral && decide (-0x80000000 ≤ d.truncate ∧ d.truncate < 0x80000000) &&
    !(d.isZero && d.isNegative)

/-- A number as a value, an integer where that is exact. -/
def number (d : Double) : Value :=
  if isExactInt32 d then .int32 (Int32.ofInt d.truncate) else .double d

def type : Value → ValueType
  | undefined => .undefined
  | null => .null
  | boolean _ => .boolean
  | int32 _ => .int32
  | double _ => .double
  | string _ => .string
  | symbol _ => .symbol
  | object _ => .object
  | magic _ => .magic

def isPrimitive (v : Value) : Bool := v.type.isPrimitive

def isMagic : Value → Bool
  | magic _ => true
  | _ => false

/-- A 32-bit integer as a double. -/
def doubleOfInt32 (i : Int32) : Double := Double.ofInt i.toInt

/-- The value of a number. -/
def asNumber? : Value → Option Double
  | int32 i => some (doubleOfInt32 i)
  | double d => some d
  | _ => none

def isNumber (v : Value) : Bool := v.asNumber?.isSome

def asObject? : Value → Option ObjectId
  | object id => some id
  | _ => none

def asString? : Value → Option String
  | string s => some s
  | _ => none

/-- Sameness: a NaN is the same as itself, zeros of different sign differ, and so do an integer and a
double of equal value. -/
def same (a b : Value) : Bool := a == b

end Value

end InlineCache
