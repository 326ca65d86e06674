import InlineCache.Operation.Error

namespace InlineCache

/-- Why a state does not fit the frame it is to be put into. -/
inductive FrameFault where
  /-- It has fewer slots than the unit has locals. -/
  | missingLocals (slots locals : Nat)
  /-- Its offset is outside the unit. -/
  | outsideUnit (pc : Offset)
  /-- A reason given in words. -/
  | other (text : String)
deriving DecidableEq, Inhabited

def FrameFault.message : FrameFault → String
  | missingLocals slots locals => s!"{slots} slots cannot hold {locals} locals"
  | outsideUnit pc => s!"offset {pc.display} is outside the unit"
  | other text => text

/-- Errors of moving a frame between the interpreter and compiled code. -/
inductive OsrError where
  /-- The region for snapshots is too full. -/
  | outOfMemory (requested available : Nat)
  | noCompiledCode (unit : UnitId)
  /-- The code is entered at another loop. -/
  | pcMismatch (expected actual : Offset)
  /-- The code would bail out at once. -/
  | bailoutExpected
  /-- The compiler rejected the unit. -/
  | compile (reason : String)
  | invalidFrameState (fault : FrameFault)
  /-- An error of an operation in compiled code. -/
  | vm (cause : VmError)
deriving DecidableEq, Inhabited

namespace OsrError

def name : OsrError → String
  | outOfMemory _ _ => "OutOfMemory"
  | noCompiledCode _ => "NoCompiledCode"
  | pcMismatch _ _ => "PcMismatch"
  | bailoutExpected => "BailoutExpected"
  | compile _ => "Compile"
  | invalidFrameState _ => "InvalidFrameState"
  | vm _ => "Vm"

def message : OsrError → String
  | outOfMemory requested available =>
    s!"out of memory: snapshot of {requested} bytes, {available} available"
  | noCompiledCode unit => s!"no compiled OSR code for ScriptId({unit})"
  | pcMismatch expected actual =>
    s!"compiled OSR entry is at {expected.display}, frame is at {actual.display}"
  | bailoutExpected => "compiled code expects to bail out at entry"
  | compile reason => s!"OSR compile failed: {reason}"
  | invalidFrameState fault => s!"invalid frame state: {fault.message}"
  | vm cause => cause.message

/-- The error as an operation reports it. -/
def toVmError : OsrError → VmError
  | outOfMemory _ _ => .outOfMemory
  | vm cause => cause
  | e => .raised .internalError e.message

end OsrError

end InlineCache
