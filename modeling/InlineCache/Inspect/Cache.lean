import InlineCache.Cache.Dispatch
import InlineCache.Inspect.CodeUnit
import InlineCache.Inspect.Heap

namespace InlineCache

instance : View Signature := ⟨fun s => .text s.debugText⟩

instance : View TypeGuard where
  view
    | .primitives set => .array [.text "prims", view set.toList]
    | .object id => .array [.text "single", view id]
    | .group id => .array [.text "group", view id]
    | .anything => .array [.text "any"]

instance : View Payload where
  view
    | .none => .null
    | .slot cls group shape offset =>
      .array [.text "slot", .text cls.name, view group, view shape, view offset]
    | .shape cls shape => .array [.text "shape", .text cls.name, view shape]
    | .addSlot group old new => .array [.text "add_slot", view group, view old, view new]
    | .callee id => .array [.text "callee", view id]
    | .prototype ctor shape offset =>
      .array [.text "proto", view ctor, view shape, view offset]
    | .hasProp shape key present =>
      .array [.text "has_prop", view shape, .text key, view present]

instance : View Flavor := ⟨fun f => .text f.name⟩

instance : View Stub where
  view s :=
    let code := view (s.code.map (·.id))
    match s.kind with
    | .fallback kind => .array [.text "fallback", .text kind.name]
    | .monitorFallback => .array [.text "monitor_fallback"]
    | .updateFallback => .array [.text "update_fallback"]
    | .specialized signature flavor => .array [view signature, view flavor, view s.payload, code]
    | .monitor guard => .array [.text "monitor", view guard, code]
    | .update guard => .array [.text "update", view guard, code]

/-- What can be asked of a stub. -/
def Stub.summary (s : Stub) : Json :=
  .record [("stub", view s), ("fallback", view s.isFallback), ("key", view s.kind.codeKey?),
    ("ir", view s.kind.signature?), ("flavor", view s.kind.flavor?),
    ("guard", view s.kind.typeGuard?), ("debug", .text s.debugText)]

/-- A type guard and whether it accepts a value. -/
def TypeGuard.summary (g : TypeGuard) (h : Heap) (v : Value) : Json :=
  .record [("r", view (g.accepts h v)), ("kind", .text g.kind.name), ("object", view g.isObjectKind),
    ("flags", view (g.primitives?.map (·.bits.toNat))), ("debug", .text g.debugText)]

instance : View Recipe where
  view r := .record [("op", view r.signature), ("flavor", view r.kind.flavor?),
    ("data", view r.payload)]

/-- The name of a decision, and the recipe it comes with. -/
def Decision.members (d : Decision) : List (String × Json) :=
  [("decision", .text d.name), ("recipe", view d.recipe?)]

instance : View AttachState where
  view s := .record [("mode", .text s.mode.name), ("stubs", view s.stubs.toNat),
    ("fail", view s.failures.toNat), ("attempts", view s.attempts), ("max_fail", view s.maxFailures),
    ("terminal", view s.mode.isTerminal)]

instance : View Code := ⟨fun c => .array [view c.id, view c.signature, .text c.debugText]⟩

instance : View CacheConfig :=
  ⟨fun c => .array [view c.enabled, view c.maxStubs, view c.maxObjectGuards, view c.arenaLimit]⟩

instance : View Runtime where
  view r := .record [("down", view r.tornDown),
    ("cache", view [r.codeCache.size, r.codeCache.hits, r.codeCache.misses]),
    ("config", view r.config), ("debug", .text r.debugText)]

/-- The contents and the counts of a code cache. -/
def CodeCache.members (c : CodeCache) : List (String × Json) :=
  [("len", view c.size), ("empty", view (c.size == 0)), ("hits", view c.hits),
    ("misses", view c.misses)]

/-- An arena without its stubs. -/
def Arena.summary (a : Arena) : Json :=
  .array [view a.size, view a.remaining, view (a.size == 0), .text a.debugText]

/-- A chain with the stubs in it, and how full their arena is. -/
def Chain.summary (c : Chain) (a : Arena) : Json :=
  .record [("ids", view (c.stubIds a)), ("stubs", view (c.stubs a)), ("walk", view (a.walk c.head)),
    ("head", view c.head), ("fallback", view c.fallback), ("last", view c.last),
    ("len", view (c.size a)), ("only", view c.isFallbackOnly), ("space", view (a.size, a.optimized)),
    ("remaining", view a.remaining), ("empty", view (a.size == 0))]

/-- The counts of a unit, and how often code was found compiled. -/
def Counters.viewWith (c : Counters) (codeHits : Nat) : Json := view (c.toList ++ [codeHits])

/-- The guards of a chain, and what attaching them has cost. -/
def TypeChain.summary (t : TypeChain) (env : AttachEnv) : Json :=
  .record [("guards", view (t.guards env.arena)), ("stats", env.counters.viewWith 0),
    ("len", view env.arena.size), ("used", view env.arena.optimized),
    ("oom", view env.runtime.zone.oomCount)]

namespace UnitCache

/-- An entry of a unit. -/
def viewEntry (c : UnitCache) (index : Nat) : Json :=
  let entry := c.entry index
  .record [("mode", .text entry.state.mode.name), ("n", view entry.state.stubs.toNat),
    ("fail", view entry.state.failures.toNat), ("attempts", view entry.state.attempts),
    ("entered", view entry.entered), ("stubs", view (entry.chain.stubs c.arena)),
    ("path", view (c.arena.walk entry.chain.head)), ("last", view entry.chain.last),
    ("monitor", view (c.monitorGuards index)), ("types", view (entry.monitor.map (·.types))),
    ("double", view entry.sawDouble)]

/-- The fixed part of an entry, with what else there is to tell. -/
def viewSite (c : UnitCache) (id : EntryId) (more : List Json) : Json :=
  let site := c.site id.index
  .array ([view id.index, .text id.display] ++ more ++ [.text site.pc.display, .text site.kind.name])

/-- A unit with its entries. -/
def summary (c : UnitCache) : Json :=
  .record [("script", view c.unit), ("count", view c.sites.size),
    ("entries", view (c.entryIds.map fun id => c.viewSite id [])),
    ("alloc", view c.arena.size), ("debug", .text c.debugText)]

end UnitCache

/-- The counts of a unit, and how many stubs were made for it. -/
def World.countMembers {σ : Type} (w : World σ) (c : CacheId) : List (String × Json) :=
  [("s", (w.cache c).counters.viewWith w.runtime.codeCache.hits), ("alloc", view (w.cache c).arena.size)]

end InlineCache
