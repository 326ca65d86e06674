import InlineCache.Cache.Signature
import InlineCache.Collector.Edge
import InlineCache.Heap.Debug

namespace InlineCache

/-- Why a signature was not compiled. -/
inductive CompileError where
  | outOfMemory
  | unsupported (signature : Signature)
deriving DecidableEq, Inhabited

namespace CompileError

def message : CompileError → String
  | outOfMemory => "out of memory"
  | unsupported signature => "unsupported stub signature " ++ signature.debugText

def debugText : CompileError → String
  | outOfMemory => "OutOfMemory"
  | unsupported signature => "Unsupported(" ++ signature.debugText ++ ")"

end CompileError

/-- Code that runs the stubs of a signature. -/
structure Code where
  id : CodeId
  signature : Signature
deriving DecidableEq, Inhabited

def Code.debugText (c : Code) : String :=
  Text.debugRecord "CompiledCode" [("id", toString c.id), ("op", c.signature.debugText)]

/-- A compiler: the error with which it fails, if it does, given how often it was called before. -/
abbrev Compiler := Nat → Signature → Option CompileError

/-- Code by signature: compiled once, and shared by all stubs of that signature. An identity is given out
only to code that compiled, and never twice, not even after the cache was cleared. -/
structure CodeCache where
  entries : Assoc Signature Code
  /-- How many identities were given out. -/
  compiled : Nat
  hits : Nat
  misses : Nat
deriving Inhabited

namespace CodeCache

def empty : CodeCache := ⟨.empty, 0, 0, 0⟩

def size (c : CodeCache) : Nat := c.entries.size

def get? (c : CodeCache) (signature : Signature) : Option Code := c.entries.find? signature

/-- The code of a signature. Code that is not there is compiled; if that fails, with the error given,
only the count of misses changes. -/
def getOrCompile (c : CodeCache) (failure : Signature → Option CompileError)
    (signature : Signature) : Except CompileError Code × CodeCache :=
  match c.get? signature with
  | some code => (.ok code, { c with hits := c.hits + 1 })
  | none =>
    match failure signature with
    | some e => (.error e, { c with misses := c.misses + 1 })
    | none =>
      let code := ⟨c.compiled + 1, signature⟩
      (.ok code, { c with entries := c.entries.set signature code, compiled := c.compiled + 1,
                          misses := c.misses + 1 })

/-- Forgets all code. Stubs that hold code keep it. -/
def clear (c : CodeCache) : CodeCache := { c with entries := .empty }

end CodeCache

end InlineCache
