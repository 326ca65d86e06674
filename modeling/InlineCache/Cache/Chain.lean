import InlineCache.Cache.Arena
import InlineCache.Collector.Zone

namespace InlineCache

/-- A chain of stubs in an arena. A new stub goes to the head, so the newest is tried first; a fallback ends
the chain. Before a stub is taken out, the collector is told what it keeps alive. -/
structure Chain where
  head : StubId
  fallback : StubId
  /-- The stub just before the fallback. -/
  last : Option StubId
deriving DecidableEq, Inhabited

namespace Chain

/-- A chain that holds nothing but its fallback. -/
def create (a : Arena) (fallback : Stub) : Chain × Arena :=
  let (id, a) := a.addFallback fallback
  (⟨id, id, none⟩, a)

def isFallbackOnly (c : Chain) : Bool := c.head == c.fallback

/-- The stubs before the fallback, in the order in which they are tried. -/
def stubIds (c : Chain) (a : Arena) : List StubId := (a.walk c.head).takeWhile (· ≠ c.fallback)

def stubs (c : Chain) (a : Arena) : List Stub := (c.stubIds a).map a.stub

def size (c : Chain) (a : Arena) : Nat := (c.stubIds a).length

/-- The first stub in a list with a property, and the one before it. -/
def findIn (a : Arena) (p : Stub → Bool) :
    Option StubId → List StubId → Option (Option StubId × StubId)
  | _, [] => none
  | prev, id :: rest => if p (a.stub id) then some (prev, id) else findIn a p (some id) rest

def find? (c : Chain) (a : Arena) (p : Stub → Bool) : Option (Option StubId × StubId) :=
  findIn a p none (c.stubIds a)

/-- Adds a stub at the head. -/
def insert (c : Chain) (a : Arena) (s : Stub) : Except CacheError StubId × Chain × Arena :=
  match a.add s c.head with
  | (.error e, a) => (.error e, c, a)
  | (.ok id, a) =>
    (.ok id, { c with head := id, last := if c.isFallbackOnly then some id else c.last }, a)

/-- Takes out a stub, given the one before it. The stub keeps what follows it. -/
def unlink (c : Chain) (a : Arena) (z : Zone) (prev : Option StubId) (id : StubId) :
    Chain × Arena × Zone :=
  let next := a.next? id
  let last := if c.last = some id then prev else c.last
  let z := z.preBarrier (a.stub id).edges
  match prev with
  | none => ({ c with head := next.getD c.fallback, last := last }, a, z)
  | some prev => ({ c with last := last }, a.setNext prev next, z)

/-- Takes out the stubs of a list that have a property and counts them; `prev` is the one that stayed
before the list. -/
def unlinkFrom (p : Stub → Bool) :
    List StubId → Option StubId → Chain → Arena → Zone → Nat × Chain × Arena × Zone
  | [], _, c, a, z => (0, c, a, z)
  | id :: rest, prev, c, a, z =>
    if p (a.stub id) then
      let (c, a, z) := c.unlink a z prev id
      let (removed, c, a, z) := unlinkFrom p rest prev c a z
      (removed + 1, c, a, z)
    else unlinkFrom p rest (some id) c a z

/-- Takes out the stubs with a property, and counts them. -/
def unlinkMatching (c : Chain) (a : Arena) (z : Zone) (p : Stub → Bool) :
    Nat × Chain × Arena × Zone :=
  unlinkFrom p (c.stubIds a) none c a z

/-- Takes out all stubs, and counts them. -/
def discardAll (c : Chain) (a : Arena) (z : Zone) : Nat × Chain × Arena × Zone :=
  c.unlinkMatching a z fun _ => true

/-- The edges of all stubs of the chain. -/
def edges (c : Chain) (a : Arena) : List Edge := (a.walk c.head).flatMap fun id => (a.stub id).edges

end Chain

end InlineCache
