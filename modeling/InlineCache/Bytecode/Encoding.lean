import InlineCache.Bytecode.CodeUnit
import InlineCache.Json.Text

namespace InlineCache

namespace Opcode

/-- The operand of an instruction, encoded. -/
def operand? : Opcode → Option Json
  | getLocal slot | setLocal slot | getAliasedVar slot => some (.natural slot.toNat)
  | jump target | jumpIfFalse target => some (.natural target.toNat)
  | binary op => some (.text op.name)
  | unary op => some (.text op.name)
  | compare op => some (.text op.name)
  | getProp name | setProp name => some (.natural name.toNat)
  | call argc => some (.natural argc.toNat)
  | nop | loopEntry | getElem | setElem | hasProp | hasOwn | instanceOf | typeOf | getIterator
  | ret => none

/-- An operation without an operand is its name; one with an operand is a record of one member, from the
name to the operand. -/
def toJson (opcode : Opcode) : Json :=
  match opcode.operand? with
  | none => .text opcode.name
  | some operand => .record [(opcode.name, operand)]

/-- A choice that stands alone, with no content but perhaps `null`. -/
def bareName? (j : Json) : Option String :=
  match j.choice? with
  | some (name, none) | some (name, some .null) => some name
  | _ => none

/-- The operations that have no operand. -/
def plain : List Opcode :=
  [nop, loopEntry, getElem, setElem, hasProp, hasOwn, instanceOf, typeOf, getIterator, ret]

/-- The operation with this name and operand. -/
def withOperand? (name : String) (operand : Json) : Option Opcode :=
  let slot? := (operand.below? 0x10000).map UInt16.ofNat
  let word? := (operand.below? 0x100000000).map UInt32.ofNat
  match name with
  | "GetLocal" => slot?.map getLocal
  | "SetLocal" => slot?.map setLocal
  | "GetAliasedVar" => slot?.map getAliasedVar
  | "Jump" => word?.map jump
  | "JumpIfFalse" => word?.map jumpIfFalse
  | "Binary" => (bareName? operand >>= BinaryOp.ofName?).map binary
  | "Unary" => (bareName? operand >>= UnaryOp.ofName?).map unary
  | "Compare" => (bareName? operand >>= CompareOp.ofName?).map compare
  | "GetProp" => word?.map getProp
  | "SetProp" => word?.map setProp
  | "Call" => (operand.below? 0x100).map fun n => call (UInt8.ofNat n)
  | _ => none

def ofJson? (j : Json) : Option Opcode :=
  match bareName? j >>= fun name => plain.find? (·.name = name) with
  | some opcode => some opcode
  | none =>
    match j.choice? with
    | some (name, some operand) => withOperand? name operand
    | _ => none

end Opcode

namespace CodeUnit

/-- The fields of a unit, in the order of its encoding. -/
def fieldNames : List String :=
  ["id", "name", "arg_count", "is_function", "local_count", "instructions", "names"]

def instructionJson (opcode : Opcode) : Json := .record [("opcode", opcode.toJson)]

def toJson (unit : CodeUnit) : Json :=
  .record (fieldNames.zip
    [.natural unit.id.toNat, .text unit.name, .natural unit.argCount.toNat, .bool unit.isFunction,
      .natural unit.localCount.toNat,
      .array (unit.instructions.toList.map instructionJson),
      .array (unit.names.toList.map .text)])

def instructionOfJson? (j : Json) : Option Opcode :=
  match j.fields? ["opcode"] with
  | some [opcode] => Opcode.ofJson? opcode
  | _ => none

/-- The unit that a value encodes, under the given identity instead of its own. -/
def ofJson? (id : UnitId) (j : Json) : Option CodeUnit :=
  match j.fields? fieldNames with
  | some [oldId, name, argCount, isFunction, localCount, instructions, names] => do
    let _ ← oldId.below? 0x100000000
    let name ← name.text?
    let argCount ← argCount.below? 0x10000
    let isFunction ← isFunction.bool?
    let localCount ← localCount.below? 0x10000
    let instructions ← (← instructions.array?).mapM instructionOfJson?
    let names ← (← names.array?).mapM Json.text?
    return ⟨id, name, UInt16.ofNat argCount, isFunction, UInt16.ofNat localCount,
      instructions.toArray, names.toArray⟩
  | _ => none

/-- The text of a unit's encoding. -/
def render (unit : CodeUnit) : String := unit.toJson.render

/-- The unit that a text encodes, under the given identity, before it is checked. -/
def parse? (id : UnitId) (text : String) : Option CodeUnit := Json.parse? text >>= ofJson? id

end CodeUnit

end InlineCache
