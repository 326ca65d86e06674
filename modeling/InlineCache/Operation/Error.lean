import InlineCache.Bytecode.CodeUnit
import InlineCache.Cache.Signature

namespace InlineCache

/-- The kinds of errors that scripts see. -/
inductive ErrorKind where
  | typeError
  | rangeError
  /-- Something that scripts should never meet, such as a sentinel used as an operand. -/
  | internalError
  | outOfMemory
  /-- An exception thrown by a native function. -/
  | thrown
  | bytecode
deriving DecidableEq, Inhabited

namespace ErrorKind

def name : ErrorKind → String
  | typeError => "TypeError"
  | rangeError => "RangeError"
  | internalError => "InternalError"
  | outOfMemory => "OutOfMemory"
  | thrown => "Thrown"
  | bytecode => "Bytecode"

end ErrorKind

/-- Errors of operations. Inline caches hand them on unchanged. -/
inductive VmError where
  | symbolToNumber
  | symbolToString
  /-- The read of a property of nothing: of `undefined` or `null`. -/
  | readOfNothing (target key : String)
  | writeOfNothing (target key : String)
  /-- The search for a property in something that is no object. -/
  | searchInPrimitive (key target : String)
  | nothingToObject (target : String)
  | notConstructor (text : String)
  | noPrototype
  | notFunction (text : String)
  /-- The direct call of an object that is no function. -/
  | objectNotFunction (object : ObjectId)
  | notIterable (text : String)
  | invalidArrayLength
  | magicOperand (kind : Magic)
  /-- A cache entry used with a unit that it does not belong to. -/
  | foreignEntry (entry : Nat) (unit : String)
  /-- A type monitor that was given anything but one operand. -/
  | monitorArity (pc : Offset)
  /-- An entry that was given too many or too few operands for its operation. -/
  | operandArity (operation : String) (pc : Offset)
  /-- A stub that ran on operands its guard does not accept. -/
  | unguardedStub (signature : Signature)
  /-- A stub whose payload is not the one its signature works with. -/
  | mismatchedPayload (signature : Signature)
  /-- An error given by its kind and message, as native functions do. -/
  | raised (kind : ErrorKind) (message : String)
  | outOfMemory
  | bytecode (cause : BytecodeError)
  /-- The text of an array that holds itself has no end. -/
  | endlessText
deriving DecidableEq, Inhabited

namespace VmError

def kind : VmError → ErrorKind
  | symbolToNumber | symbolToString | readOfNothing _ _ | writeOfNothing _ _
  | searchInPrimitive _ _ | nothingToObject _ | notConstructor _ | noPrototype | notFunction _
  | objectNotFunction _ | notIterable _ => .typeError
  | invalidArrayLength => .rangeError
  | magicOperand _ | foreignEntry _ _ | monitorArity _ | operandArity _ _ | unguardedStub _
  | mismatchedPayload _ | endlessText => .internalError
  | raised kind _ => kind
  | outOfMemory => .outOfMemory
  | bytecode _ => .bytecode

/-- What went wrong, without the kind of error. -/
def detail : VmError → String
  | symbolToNumber => "Cannot convert a Symbol value to a number"
  | symbolToString => "Cannot convert a Symbol value to a string"
  | readOfNothing target key => s!"Cannot read properties of {target} (reading '{key}')"
  | writeOfNothing target key => s!"Cannot set properties of {target} (setting '{key}')"
  | searchInPrimitive key target =>
    s!"Cannot use 'in' operator to search for '{key}' in {target}"
  | nothingToObject target => s!"Cannot convert {target} to object"
  | notConstructor text => s!"Right-hand side of 'instanceof' is not callable: {text}"
  | noPrototype => "Function has non-object prototype in instanceof check"
  | notFunction text => s!"{text} is not a function"
  | objectNotFunction object => s!"object #{object} is not a function"
  | notIterable text => s!"{text} is not iterable"
  | invalidArrayLength => "Invalid array length"
  | magicOperand kind => s!"magic value {kind.name} used as operand"
  | foreignEntry entry unit => s!"ic#{entry} does not belong to unit {unit}"
  | monitorArity pc => s!"type monitor at {pc.display} expects one operand"
  | operandArity operation pc =>
    s!"{operation} entry at {pc.display} received operands of the wrong arity"
  | unguardedStub signature => signature.debugText ++ " stub ran without its guard"
  | mismatchedPayload signature => signature.debugText ++ " stub has a mismatched payload"
  | raised _ message => message
  | outOfMemory => ""
  | bytecode cause => cause.message
  | endlessText => "text of a cyclic array"

/-- The message of an error, which begins with its kind. -/
def message (e : VmError) : String :=
  match e.kind with
  | .outOfMemory => "OutOfMemory"
  | .thrown => "Uncaught exception: " ++ e.detail
  | .bytecode => "Bytecode error: " ++ e.detail
  | kind => kind.name ++ ": " ++ e.detail

end VmError

end InlineCache
