import InlineCache.Cache.Runtime

namespace InlineCache

/-- What a chain of type guards watches. -/
inductive TypeChainRole where
  /-- The results of an entry. -/
  | monitor
  /-- The writes to a property of a group. -/
  | update
deriving DecidableEq, Inhabited

/-- A chain of type guards, which widens until it accepts every value it is shown.

Primitives share one guard whose set of types only grows. Objects get a guard each, up to a limit, past
which any object is accepted; and once any value at all may occur, one guard for everything takes the
place of the others. A widening that fails leaves the chain as it was. -/
structure TypeChain where
  chain : Chain
  role : TypeChainRole
deriving DecidableEq, Inhabited

namespace TypeChain

/-- A chain without guards. -/
def create (a : Arena) (role : TypeChainRole) : TypeChain × Arena :=
  let ending := match role with
    | .monitor => .monitorFallback
    | .update => .updateFallback
  let (chain, a) := Chain.create a (.ending ending)
  (⟨chain, role⟩, a)

def guards (t : TypeChain) (a : Arena) : List (StubId × TypeGuard) :=
  (t.chain.stubIds a).filterMap fun id => (a.stub id).kind.typeGuard?.map fun guard => (id, guard)

/-- Whether one of the guards accepts a value. -/
def accepts (t : TypeChain) (h : Heap) (a : Arena) (v : Value) : Bool :=
  (t.guards a).any fun (_, guard) => guard.accepts h v

def recipe (t : TypeChain) (guard : TypeGuard) : Recipe :=
  match t.role with
  | .monitor => .monitor guard
  | .update => .update guard

/-- Puts a stub at the head. -/
def insert (t : TypeChain) (env : AttachEnv) (stub : Stub) :
    Except CacheError Unit × TypeChain × AttachEnv :=
  let (result, chain, env) := env.insert t.chain stub
  (result.map fun _ => (), { t with chain := chain }, env)

/-- Adds a guard at the head. -/
def attach (t : TypeChain) (env : AttachEnv) (guard : TypeGuard) :
    Except CacheError Unit × TypeChain × AttachEnv :=
  match env.build (t.recipe guard) with
  | (.error e, env) => (.error e, t, env)
  | (.ok stub, env) => t.insert env stub

/-- Puts one broader guard in the place of all. It is built, and room for it found, before the others
go. -/
def replaceAll (t : TypeChain) (env : AttachEnv) (guard : TypeGuard) :
    Except CacheError Unit × TypeChain × AttachEnv :=
  match env.build (t.recipe guard) with
  | (.error e, env) => (.error e, t, env)
  | (.ok stub, env) =>
    if env.arena.isFull then (.error (.outOfMemory "type guard"), t, env)
    else
      let (_, chain, env) := env.discardAll t.chain
      insert { t with chain := chain } env stub

/-- Puts a guard in the place of another. -/
def replace (t : TypeChain) (env : AttachEnv) (id : StubId) (guard : TypeGuard) :
    Except CacheError Unit × TypeChain × AttachEnv :=
  match env.build (t.recipe guard) with
  | (.error e, env) => (.error e, t, env)
  | (.ok stub, env) => (.ok (), t, { env with arena := env.arena.replace id stub })

/-- The guard for primitives and its place, if there is one. -/
def primitiveGuard? (guards : List (StubId × TypeGuard)) : Option (StubId × PrimitiveSet) :=
  guards.findSome? fun (id, guard) => guard.primitives?.map fun set => (id, set)

/-- Widens the guard for primitives by a type, and by all objects if the known types have them all.
The guards for single objects are then of no use any more. -/
def widenPrimitives (t : TypeChain) (env : AttachEnv) (types : TypeSet) (type : ValueType) :
    Except CacheError Unit × TypeChain × AttachEnv :=
  let guards := t.guards env.arena
  let existing := primitiveGuard? guards
  let set := ((existing.map Prod.snd).getD PrimitiveSet.empty).insert type
  let set := if types.isUnknownObject then set.insert .object else set
  if types.isUnknownObject && guards.any (·.2.isObjectKind) then
    t.replaceAll env (.primitives set)
  else
    match existing with
    | some (id, _) => t.replace env id (.primitives set)
    | none => t.attach env (.primitives set)

/-- The guard for one object, or for its group. -/
def objectGuard (h : Heap) (id : ObjectId) : TypeGuard :=
  if (h.object id).singleton then .object id else .group (h.object id).group

/-- Widens the chain so that it accepts a value of the known types, and tells whether it had to. The types
widen to all objects when there is no more room for guards of single ones. -/
def widen (t : TypeChain) (h : Heap) (env : AttachEnv) (types : TypeSet) (v : Value) :
    Except CacheError Bool × TypeChain × TypeSet × AttachEnv :=
  let guards := t.guards env.arena
  if types.isUnknown then
    if guards.map (·.2) = [.anything] then (.ok false, t, types, env)
    else
      let (result, t, env) := t.replaceAll env .anything
      (result.map fun _ => true, t, types, env)
  else if guards.any fun (_, guard) => guard.accepts h v then (.ok false, t, types, env)
  else
    match v, types.isUnknownObject with
    | .object id, false =>
      if (guards.filter (·.2.isObjectKind)).length < env.runtime.config.maxObjectGuards then
        let (result, t, env) := t.attach env (objectGuard h id)
        (result.map fun _ => true, t, types, env)
      else
        let types := types.markUnknownObject
        let (result, t, env) := t.widenPrimitives env types .object
        (result.map fun _ => true, t, types, env)
    | v, _ =>
      let (result, t, env) := t.widenPrimitives env types v.type
      (result.map fun _ => true, t, types, env)

/-- Counts a guard that was added or widened. -/
def countAttached (role : TypeChainRole) (c : Counters) : Counters :=
  match role with
  | .monitor => { c with monitorStubsAttached := c.monitorStubsAttached + 1 }
  | .update => { c with updateStubsAttached := c.updateStubsAttached + 1 }

/-- Widens the chain for a value and counts the outcome. Nothing is done for optimized-out values. -/
def refine (t : TypeChain) (h : Heap) (env : AttachEnv) (types : TypeSet) (v : Value) :
    TypeChain × TypeSet × AttachEnv :=
  if v = .magic .optimizedOut then (t, types, env)
  else
    match t.widen h env types v with
    | (.ok true, t, types, env) => (t, types, env.mapCounters (countAttached t.role))
    | (.ok false, t, types, env) => (t, types, env)
    | (.error e, t, types, env) => (t, types, env.reportFailure e)

/-- Shows a chain of writes a value that is about to be stored, and tells whether it was accepted at
once. If not, the value is recorded for the property, unless the layout implies it. -/
def recordWrite (t : TypeChain) (h : Heap) (env : AttachEnv) (group : GroupId) (key : PropertyKey)
    (v : Value) : Bool × TypeChain × Heap × AttachEnv :=
  if t.accepts h env.arena v then (true, t, h, env)
  else
    let env := env.mapCounters fun c => { c with updateFallbackHits := c.updateFallbackHits + 1 }
    if ((h.group group).fieldRepr? key).any (·.implicitlyCovers v) then (false, t, h, env)
    else
      let h := h.addPropertyType group key v
      let before := (h.group group).propertyTypes key
      let (t, types, env) := t.refine h env before v
      let h :=
        if types.isUnknownObject && !before.isUnknownObject then
          h.modifyGroup group (·.widenProperty key (·.markUnknownObject))
        else h
      (false, t, h, env)

end TypeChain

/-- The watch over the results of an entry. -/
structure Monitor where
  chain : TypeChain
  /-- The types seen. -/
  types : TypeSet
deriving DecidableEq, Inhabited

namespace Monitor

def create (a : Arena) : Monitor × Arena :=
  let (chain, a) := TypeChain.create a .monitor
  (⟨chain, .empty⟩, a)

def accepts (m : Monitor) (h : Heap) (a : Arena) (v : Value) : Bool := m.chain.accepts h a v

/-- Records a result and widens the guards to accept it. -/
def record (m : Monitor) (h : Heap) (env : AttachEnv) (v : Value) : Monitor × AttachEnv :=
  let env :=
    env.mapCounters fun c => { c with monitorFallbackHits := c.monitorFallbackHits + 1 }
  let (chain, types, env) := m.chain.refine h env (m.types.addValue h.objectKey v) v
  (⟨chain, types⟩, env)

end Monitor

end InlineCache
