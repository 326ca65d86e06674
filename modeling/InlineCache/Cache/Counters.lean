namespace InlineCache

/-- Counts of what happened in the caches of a unit. -/
structure Counters where
  /-- Uses of entries that reached the fallback. -/
  fallbackHits : Nat
  /-- Uses of entries that a stub answered. -/
  stubHits : Nat
  stubsAttached : Nat
  stubsDiscarded : Nat
  megamorphicTransitions : Nat
  genericTransitions : Nat
  /-- Attempts put off because the operands are not ready to be specialized. -/
  temporarilyUnoptimizable : Nat
  /-- Stubs attached after the operation ran. -/
  deferredAttaches : Nat
  /-- Attempts given up because memory ran out. -/
  oomRecoveries : Nat
  monitorFallbackHits : Nat
  monitorStubsAttached : Nat
  updateFallbackHits : Nat
  updateStubsAttached : Nat
deriving DecidableEq, Inhabited

namespace Counters

def zero : Counters := ⟨0, 0, 0, 0, 0, 0, 0, 0, 0, 0, 0, 0, 0⟩

/-- The counts in the order of their declaration. -/
def toList (c : Counters) : List Nat :=
  [c.fallbackHits, c.stubHits, c.stubsAttached, c.stubsDiscarded, c.megamorphicTransitions,
    c.genericTransitions, c.temporarilyUnoptimizable, c.deferredAttaches, c.oomRecoveries,
    c.monitorFallbackHits, c.monitorStubsAttached, c.updateFallbackHits, c.updateStubsAttached]

end Counters

end InlineCache
