import InlineCache.Osr.Error

namespace InlineCache

/-- A frame of the interpreter. Its slots are the locals of the unit, which are never popped, and then the
values of the expression stack. Only the slots and the offset move into compiled code; the receiver and
the arguments stay. -/
structure Frame where
  unit : CodeUnit
  pc : Offset
  this : Value
  args : Array Value
  /-- Locals, then the expression stack. -/
  slots : Array Value
  /-- Whether a debugger watches the frame. -/
  debuggee : Bool
deriving DecidableEq, Inhabited

/-- The fixed part of a frame as compiled code lays it out. -/
structure FrameHeader where
  unit : UnitId
  pc : Offset
  slotCount : Nat
  flags : Nat
  returnValue : Nat
deriving DecidableEq, Inhabited

/-- An offset and slots to go on from. -/
structure FrameState where
  pc : Offset
  slots : Array Value
deriving DecidableEq, Inhabited

namespace Frame

/-- The size of a frame's header, in bytes. -/
def headerSize : Nat := 24

/-- The size of a slot, in bytes. -/
def slotSize : Nat := 8

/-- The flag of frames that a debugger watches. -/
def debuggeeFlag : Nat := 1

def localCount (f : Frame) : Nat := f.unit.localCount.toNat

/-- A frame at the start of a unit, its locals `undefined`. -/
def enter (unit : CodeUnit) (this : Value) (args : List Value) : Frame :=
  ⟨unit, 0, this, args.toArray, Array.replicate unit.localCount.toNat .undefined, false⟩

/-- An argument, `undefined` if it was not passed. -/
def arg (f : Frame) (index : Nat) : Value := f.args[index]?.getD .undefined

/-- Overwrites an argument that was passed. -/
def setArg (f : Frame) (index : Nat) (v : Value) : Frame :=
  { f with args := f.args.setIfInBounds index v }

def local? (f : Frame) (index : Nat) : Option Value := f.slots[index]?

/-- Overwrites a slot that is there. -/
def setLocal (f : Frame) (index : Nat) (v : Value) : Frame :=
  { f with slots := f.slots.setIfInBounds index v }

def push (f : Frame) (v : Value) : Frame := { f with slots := f.slots.push v }

/-- Takes the top of the expression stack, if it is not empty. -/
def pop (f : Frame) : Option Value × Frame :=
  if f.localCount < f.slots.size then (f.slots.back?, { f with slots := f.slots.pop }) else (none, f)

def header (f : Frame) : FrameHeader :=
  ⟨f.unit.id, f.pc, f.slots.size, if f.debuggee then debuggeeFlag else 0, 0⟩

/-- The number of bytes of a copy of the frame. -/
def byteSize (f : Frame) : Nat := headerSize + f.slots.size * slotSize

def capture (f : Frame) : FrameState := ⟨f.pc, f.slots⟩

/-- The frame with a state put into it: all of the state, or an error. -/
def restore (f : Frame) (s : FrameState) : Except OsrError Frame :=
  if s.slots.size < f.localCount then
    .error (.invalidFrameState (.missingLocals s.slots.size f.localCount))
  else if (f.unit.instruction? s.pc).isNone then .error (.invalidFrameState (.outsideUnit s.pc))
  else .ok { f with pc := s.pc, slots := s.slots }

end Frame

end InlineCache
