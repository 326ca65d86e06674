namespace InlineCache

/-- Binary arithmetic and bitwise operators. -/
inductive BinaryOp where
  | add | sub | mul | div | mod | pow | bitAnd | bitOr | bitXor | shiftLeft | shiftRight
  /-- The shift that fills with zeros and reads its operand as unsigned. -/
  | shiftRightZero
deriving DecidableEq, Inhabited, Repr

namespace BinaryOp

def all : List BinaryOp :=
  [add, sub, mul, div, mod, pow, bitAnd, bitOr, bitXor, shiftLeft, shiftRight, shiftRightZero]

def name : BinaryOp → String
  | add => "Add"
  | sub => "Sub"
  | mul => "Mul"
  | div => "Div"
  | mod => "Mod"
  | pow => "Pow"
  | bitAnd => "BitAnd"
  | bitOr => "BitOr"
  | bitXor => "BitXor"
  | shiftLeft => "Lsh"
  | shiftRight => "Rsh"
  | shiftRightZero => "Ursh"

/-- Whether the operator works on 32-bit words. -/
def isBitwise : BinaryOp → Bool
  | bitAnd | bitOr | bitXor | shiftLeft | shiftRight | shiftRightZero => true
  | _ => false

def ofName? (s : String) : Option BinaryOp := all.find? (·.name = s)

end BinaryOp

/-- Unary arithmetic operators. -/
inductive UnaryOp where
  | neg | bitNot | inc | dec
deriving DecidableEq, Inhabited, Repr

namespace UnaryOp

def all : List UnaryOp := [neg, bitNot, inc, dec]

def name : UnaryOp → String
  | neg => "Neg"
  | bitNot => "BitNot"
  | inc => "Inc"
  | dec => "Dec"

def ofName? (s : String) : Option UnaryOp := all.find? (·.name = s)

end UnaryOp

/-- Comparison operators. -/
inductive CompareOp where
  | lt | le | gt | ge | eq | ne | strictEq | strictNe
deriving DecidableEq, Inhabited, Repr

namespace CompareOp

def all : List CompareOp := [lt, le, gt, ge, eq, ne, strictEq, strictNe]

def name : CompareOp → String
  | lt => "Lt"
  | le => "Le"
  | gt => "Gt"
  | ge => "Ge"
  | eq => "Eq"
  | ne => "Ne"
  | strictEq => "StrictEq"
  | strictNe => "StrictNe"

/-- Whether this is one of the four equality operators. -/
def isEquality : CompareOp → Bool
  | eq | ne | strictEq | strictNe => true
  | _ => false

def ofName? (s : String) : Option CompareOp := all.find? (·.name = s)

end CompareOp

/-- Which inline cache a place in the code owns. -/
inductive SiteKind where
  | toBool
  | unaryArith
  | binaryArith
  | compare
  | getProp
  | setProp
  | getElem
  | setElem
  /-- The test `key in object`. -/
  | hasProp
  | hasOwn
  | instanceOf
  | call
  | typeOf
  | getIterator
  /-- The check of the type of a value that the interpreter loads itself. -/
  | typeMonitor
  /-- The counter at a loop header that drives entry into compiled code. -/
  | warmUpCounter
deriving DecidableEq, Inhabited, Repr

namespace SiteKind

def all : List SiteKind :=
  [toBool, unaryArith, binaryArith, compare, getProp, setProp, getElem, setElem, hasProp, hasOwn,
    instanceOf, call, typeOf, getIterator, typeMonitor, warmUpCounter]

def name : SiteKind → String
  | toBool => "ToBool"
  | unaryArith => "UnaryArith"
  | binaryArith => "BinaryArith"
  | compare => "Compare"
  | getProp => "GetProp"
  | setProp => "SetProp"
  | getElem => "GetElem"
  | setElem => "SetElem"
  | hasProp => "In"
  | hasOwn => "HasOwn"
  | instanceOf => "InstanceOf"
  | call => "Call"
  | typeOf => "TypeOf"
  | getIterator => "GetIterator"
  | typeMonitor => "TypeMonitor"
  | warmUpCounter => "WarmUpCounter"

def ofName? (s : String) : Option SiteKind := all.find? (·.name = s)

/-- Whether the values produced here go through a chain of type guards. -/
def isMonitored : SiteKind → Bool
  | getProp | getElem | call | typeMonitor => true
  | _ => false

end SiteKind

/-- The offset of an instruction within its unit. -/
abbrev Offset := UInt32

namespace Offset

/-- The offset of entries that belong to no instruction: the checks of receiver and arguments when a
function starts. -/
def prologue : Offset := 0xffffffff

def isPrologue (pc : Offset) : Bool := pc == prologue

/-- An offset as messages show it: at least five digits. -/
def display (pc : Offset) : String :=
  if pc.isPrologue then "<prologue>"
  else
    let digits := Nat.toDigits 10 pc.toNat
    String.ofList (List.replicate (5 - digits.length) '0' ++ digits)

end Offset

/-- One instruction: an operation with its operands. -/
inductive Opcode where
  | nop
  | getLocal (slot : UInt16)
  | setLocal (slot : UInt16)
  /-- The read of a variable of an enclosing function, whose type is monitored. -/
  | getAliasedVar (slot : UInt16)
  | jump (target : Offset)
  | jumpIfFalse (target : Offset)
  /-- A loop header. -/
  | loopEntry
  | binary (op : BinaryOp)
  | unary (op : UnaryOp)
  | compare (op : CompareOp)
  | getProp (name : UInt32)
  | setProp (name : UInt32)
  | getElem
  | setElem
  | hasProp
  | hasOwn
  | instanceOf
  | call (argc : UInt8)
  | typeOf
  | getIterator
  | ret
deriving DecidableEq, Inhabited, Repr

namespace Opcode

/-- The cache that instructions with this opcode own, if any. -/
def siteKind? : Opcode → Option SiteKind
  | nop | getLocal _ | setLocal _ | jump _ | ret => none
  | getAliasedVar _ => some .typeMonitor
  | jumpIfFalse _ => some .toBool
  | loopEntry => some .warmUpCounter
  | binary _ => some .binaryArith
  | unary _ => some .unaryArith
  | compare _ => some .compare
  | getProp _ => some .getProp
  | setProp _ => some .setProp
  | getElem => some .getElem
  | setElem => some .setElem
  | hasProp => some .hasProp
  | hasOwn => some .hasOwn
  | instanceOf => some .instanceOf
  | call _ => some .call
  | typeOf => some .typeOf
  | getIterator => some .getIterator

def name : Opcode → String
  | nop => "Nop"
  | getLocal _ => "GetLocal"
  | setLocal _ => "SetLocal"
  | getAliasedVar _ => "GetAliasedVar"
  | jump _ => "Jump"
  | jumpIfFalse _ => "JumpIfFalse"
  | loopEntry => "LoopEntry"
  | binary _ => "Binary"
  | unary _ => "Unary"
  | compare _ => "Compare"
  | getProp _ => "GetProp"
  | setProp _ => "SetProp"
  | getElem => "GetElem"
  | setElem => "SetElem"
  | hasProp => "In"
  | hasOwn => "HasOwn"
  | instanceOf => "InstanceOf"
  | call _ => "Call"
  | typeOf => "TypeOf"
  | getIterator => "GetIterator"
  | ret => "Return"

end Opcode

end InlineCache
