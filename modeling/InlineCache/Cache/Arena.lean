import InlineCache.Cache.Error
import InlineCache.Cache.Stub

namespace InlineCache

/-- The place of a stub in its arena. -/
abbrev StubId := Nat

def StubId.display (id : StubId) : String := "stub#" ++ toString id

/-- The stubs of a unit, never freed, each with the stub that follows it in its chain.

Taking a stub out of a chain changes only what follows its predecessor, so whoever still holds the stub
walks on to the end of the chain. A stub is followed by one that is older, so every walk ends. -/
structure Arena where
  stubs : Array Stub
  /-- What follows each stub; nothing follows a fallback. -/
  links : Array (Option StubId)
  /-- How many stubs are not fallbacks. -/
  optimized : Nat
  /-- The limit on stubs that are not fallbacks, if there is one. -/
  limit : Option Nat
deriving Inhabited

namespace Arena

def empty (limit : Option Nat) : Arena := ⟨#[], #[], 0, limit⟩

def size (a : Arena) : Nat := a.stubs.size

def stub (a : Arena) (id : StubId) : Stub := a.stubs[id]?.getD default

/-- What follows a stub. -/
def next? (a : Arena) (id : StubId) : Option StubId := a.links[id]?.join

def push (a : Arena) (s : Stub) (next : Option StubId) : StubId × Arena :=
  (a.stubs.size, { a with stubs := a.stubs.push s, links := a.links.push next })

/-- Adds the end of a chain. -/
def addFallback (a : Arena) (s : Stub) : StubId × Arena := a.push s none

/-- How many more stubs there is room for, if there is a limit. -/
def remaining (a : Arena) : Option Nat := a.limit.map (· - a.optimized)

def isFull (a : Arena) : Bool := a.remaining == some 0

/-- Adds a stub in front of another. -/
def add (a : Arena) (s : Stub) (next : StubId) : Except CacheError StubId × Arena :=
  if a.isFull then (.error (.outOfMemory "stub"), a)
  else
    let (id, a) := { a with optimized := a.optimized + 1 }.push s (some next)
    (.ok id, a)

def setNext (a : Arena) (id : StubId) (next : Option StubId) : Arena :=
  { a with links := a.links.setIfInBounds id next }

/-- Puts a widened stub in the place of another. -/
def replace (a : Arena) (id : StubId) (s : Stub) : Arena :=
  { a with stubs := a.stubs.setIfInBounds id s }

/-- The stubs from a given one on, as they follow each other. -/
def walk (a : Arena) (id : StubId) : List StubId :=
  match a.next? id with
  | some next => if next < id then id :: walk a next else [id]
  | none => [id]
termination_by id

def debugText (a : Arena) : String :=
  Text.debugRecord "StubSpace" [("len", toString a.size), ("optimized", toString a.optimized),
    ("limit", Text.debugOption (a.limit.map toString))]

end Arena

end InlineCache
