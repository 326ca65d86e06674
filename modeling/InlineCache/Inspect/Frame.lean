import InlineCache.Inspect.Cache
import InlineCache.Osr.Transfer

namespace InlineCache

instance : View FrameHeader :=
  ⟨fun h => .array [view h.unit, view h.pc, view h.slotCount, view h.flags, view h.returnValue]⟩

instance : View Frame where
  view f := .record [("pc", view f.pc), ("this", view f.this), ("args", view f.args),
    ("slots", view f.slots), ("count", view f.slots.size), ("debuggee", view f.debuggee),
    ("bytes", view f.byteSize), ("header", view f.header)]

instance : View Snapshot where
  view s := .record [("entry", .text s.entry.display), ("pc", view s.state.pc),
    ("bytes", view s.byteSize), ("offset", view s.lease.start), ("slots", view s.state.slots),
    ("header", view s.header)]

instance : View Region where
  view r := .record [("cap", view r.capacity), ("avail", view r.available), ("live", view r.live),
    ("high", view r.highWater)]

instance : View Lease := ⟨fun l => .array [view l.start, view l.size, view (l.size == 0)]⟩

instance : View OsrCode :=
  ⟨fun c => .array [.text c.entry.display, view c.pc, view c.bailoutExpected]⟩

instance : View OsrOutcome where
  view
    | .continueInterpreting => .text "continue"
    | .returned v => .record [("returned", view v)]
    | .bailedOut reason => .record [("bailed", .text reason.name)]

instance : View OsrConfig :=
  ⟨fun c => .array [view c.enabled, view c.threshold, view c.regionCapacity]⟩

/-- A bridge, and what it knows of a unit if one is given. -/
def World.viewBridge {σ : Type} (w : World σ) (b : BridgeId) (unit : Option UnitId) : Json :=
  let bridge := w.bridge b
  .record ([("stats", view (bridge.counters.toList.map (·.2))), ("region", view bridge.region),
      ("oom", view w.runtime.zone.oomCount)] ++
    (unit.toList.flatMap fun unit =>
      [("tier", .text (bridge.tierState unit).name), ("code", view (bridge.compiledCode? unit))]))

end InlineCache
