import InlineCache.Cache.Code
import InlineCache.Operation.Error

namespace InlineCache

/-- Errors of attaching stubs and of finding entries. -/
inductive CacheError where
  /-- There is no room for what was to be allocated. -/
  | outOfMemory (what : String)
  | uncompiled (cause : CompileError)
  /-- No instruction with a cache is at the offset. -/
  | noEntry (pc : Offset)
  | bytecode (cause : BytecodeError)
deriving DecidableEq, Inhabited

namespace CacheError

def name : CacheError → String
  | outOfMemory _ => "OutOfMemory"
  | uncompiled _ => "Codegen"
  | noEntry _ => "NoEntry"
  | bytecode _ => "Bytecode"

def message : CacheError → String
  | outOfMemory what => "out of memory allocating " ++ what
  | uncompiled cause => "stub codegen failed: " ++ cause.message
  | noEntry pc => "no IC entry at offset " ++ pc.display
  | bytecode cause => cause.message

/-- The error as an operation reports it. -/
def toVmError : CacheError → VmError
  | outOfMemory _ => .outOfMemory
  | bytecode cause => .bytecode cause
  | e => .raised .internalError e.message

/-- Whether memory ran out, for the stub or for its code. -/
def isOutOfMemory : CacheError → Bool
  | outOfMemory _ | uncompiled .outOfMemory => true
  | _ => false

end CacheError

end InlineCache
