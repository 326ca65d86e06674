import InlineCache.Bytecode.Opcode

namespace InlineCache

/-- The identity of a unit. -/
abbrev UnitId := UInt32

/-- Why an instruction cannot stand in its unit, or a text holds no unit. -/
inductive BytecodeError where
  /-- A name operand outside the pool of names. -/
  | invalidName (index : UInt32)
  /-- A slot operand at or past the number of local slots. -/
  | invalidLocal (index count : UInt16)
  /-- A jump to a place past the end of the unit. -/
  | invalidJump (source target : UInt32)
  /-- A text that encodes no unit. -/
  | undecodable
deriving DecidableEq, Inhabited, Repr

def BytecodeError.name : BytecodeError → String
  | invalidName _ => "InvalidName"
  | invalidLocal _ _ => "InvalidLocal"
  | invalidJump _ _ => "InvalidJump"
  | undecodable => "Json"

def BytecodeError.message : BytecodeError → String
  | invalidName index => s!"Invalid name index: {index}"
  | invalidLocal index count => s!"Invalid local slot {index} (unit declares {count})"
  | invalidJump source target => s!"Invalid jump target {target} at offset {source}"
  | undecodable => "JSON error"

/-- A function body or a top-level program: a flat list of instructions, with the names they use. -/
structure CodeUnit where
  id : UnitId
  name : String
  argCount : UInt16
  /-- Whether the unit is a function body, and so has a receiver and arguments. -/
  isFunction : Bool
  localCount : UInt16
  instructions : Array Opcode
  names : Array String
deriving DecidableEq, Inhabited, Repr

namespace CodeUnit

def instruction? (unit : CodeUnit) (pc : Offset) : Option Opcode := unit.instructions[pc.toNat]?

def nameAt (unit : CodeUnit) (index : UInt32) : Except BytecodeError String :=
  match unit.names[index.toNat]? with
  | some name => .ok name
  | none => .error (.invalidName index)

/-- An instruction that owns a cache. -/
structure Site where
  pc : Offset
  opcode : Opcode
  kind : SiteKind
deriving DecidableEq, Inhabited, Repr

/-- The instructions that own a cache, in order. -/
def sites (unit : CodeUnit) : List Site :=
  unit.instructions.toList.zipIdx.filterMap fun (opcode, index) =>
    opcode.siteKind?.map fun kind => ⟨UInt32.ofNat index, opcode, kind⟩

/-- The number of entries that check the receiver and the arguments of a function. -/
def prologueSize (unit : CodeUnit) : Nat :=
  if unit.isFunction then 1 + unit.argCount.toNat else 0

/-- The number of cache entries the unit needs. -/
def entryCount (unit : CodeUnit) : Nat := unit.prologueSize + unit.sites.length

/-- The offsets of the loop headers. -/
def loopHeaders (unit : CodeUnit) : List Offset :=
  (unit.sites.filter (·.kind = .warmUpCounter)).map (·.pc)

/-- What is wrong with an instruction at a place of the unit, if anything. -/
def instructionError? (unit : CodeUnit) (index : Nat) : Opcode → Option BytecodeError
  | .getProp name | .setProp name =>
    if name.toNat < unit.names.size then none else some (.invalidName name)
  | .getLocal slot | .setLocal slot | .getAliasedVar slot =>
    if slot < unit.localCount then none else some (.invalidLocal slot unit.localCount)
  | .jump target | .jumpIfFalse target =>
    if target < UInt32.ofNat unit.instructions.size then none
    else some (.invalidJump (UInt32.ofNat index) target)
  | _ => none

/-- The fault of the first instruction that has one. -/
def firstError? (unit : CodeUnit) : Option BytecodeError :=
  unit.instructions.toList.zipIdx.findSome? fun (opcode, index) => unit.instructionError? index opcode

/-- The unit, if all its operands point into it. -/
def check (unit : CodeUnit) : Except BytecodeError CodeUnit :=
  match unit.firstError? with
  | some e => .error e
  | none => .ok unit

/-- A unit in the making. -/
structure Draft where
  name : String
  argCount : UInt16
  isFunction : Bool
  localCount : UInt16
  instructions : Array Opcode
  names : Array String
deriving Inhabited

namespace Draft

/-- An unnamed program without instructions. -/
def empty : Draft := ⟨"<anonymous>", 0, false, 0, #[], #[]⟩

/-- The draft as a function body with so many arguments. -/
def function (d : Draft) (argCount : UInt16) : Draft :=
  { d with isFunction := true, argCount := argCount }

/-- The operand for a name, which is put into the pool if it is not there. -/
def intern (d : Draft) (name : String) : UInt32 × Draft :=
  match d.names.findIdx? (· = name) with
  | some index => (UInt32.ofNat index, d)
  | none => (UInt32.ofNat d.names.size, { d with names := d.names.push name })

def emit (d : Draft) (opcode : Opcode) : Draft :=
  { d with instructions := d.instructions.push opcode }

/-- Appends the read of a named property. -/
def getProp (d : Draft) (name : String) : Draft :=
  let (index, d) := d.intern name
  d.emit (.getProp index)

/-- Appends the write of a named property. -/
def setProp (d : Draft) (name : String) : Draft :=
  let (index, d) := d.intern name
  d.emit (.setProp index)

/-- The unit of the draft under an identity. -/
def toUnit (d : Draft) (id : UnitId) : CodeUnit :=
  ⟨id, d.name, d.argCount, d.isFunction, d.localCount, d.instructions, d.names⟩

end Draft

end CodeUnit

end InlineCache
