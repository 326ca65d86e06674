import InlineCache.Heap.Debug
import InlineCache.Json.Basic

namespace InlineCache

/-- Settings of the caches. -/
structure CacheConfig where
  /-- Whether stubs are attached at all. -/
  enabled : Bool
  /-- The limit on stubs in the chain of an entry. -/
  maxStubs : Nat
  /-- The limit on guards for objects in a chain of type guards. -/
  maxObjectGuards : Nat
  /-- The limit on stubs of a unit, if there is one. -/
  arenaLimit : Option Nat
deriving DecidableEq, Inhabited

namespace CacheConfig

/-- The limit on stubs unless another is chosen. -/
def defaultMaxStubs : Nat := 6

/-- The greatest limit on stubs that can be chosen. -/
def greatestMaxStubs : Nat := 64

def standard : CacheConfig := ⟨true, defaultMaxStubs, defaultMaxStubs, none⟩

/-- Sets the limit on stubs, and the one on guards for objects with it. At least one stub is allowed. -/
def withMaxStubs (c : CacheConfig) (cap : Nat) : CacheConfig :=
  let cap := min (max cap 1) greatestMaxStubs
  { c with maxStubs := cap, maxObjectGuards := cap }

def withArenaLimit (c : CacheConfig) (limit : Nat) : CacheConfig :=
  { c with arenaLimit := some limit }

def disabled (c : CacheConfig) : CacheConfig := { c with enabled := false }

/-- The standard settings with the changes that a record asks for. -/
def ofJson (j : Json) : CacheConfig :=
  let c := standard
  let c := ((j.get "max").natural?.map c.withMaxStubs).getD c
  let c := ((j.get "monitor_cap").natural?.map fun n => { c with maxObjectGuards := n }).getD c
  let c := ((j.get "space").natural?.map c.withArenaLimit).getD c
  if (j.get "disabled").bool? = some true then c.disabled else c

def debugText (c : CacheConfig) : String :=
  Text.debugRecord "IcConfig" [("enabled", toString c.enabled),
    ("max_optimized_stubs", toString c.maxStubs),
    ("monitor_object_stub_cap", toString c.maxObjectGuards),
    ("stub_space_limit", Text.debugOption (c.arenaLimit.map toString))]

end CacheConfig

end InlineCache
