import InlineCache.Collector.Zone
import InlineCache.Inspect.Value

namespace InlineCache

instance : View Thing := ⟨fun t => .array [.text t.kind.name, view t.id]⟩

instance : View Edge := ⟨fun e => .array [.text e.thing.kind.name, view e.thing.id, .text e.name]⟩

namespace Heap

/-- An object with its properties and elements. -/
def viewObject (h : Heap) (id : ObjectId) : Json :=
  let o := h.object id
  .record [("id", view id), ("class", .text o.cls.name), ("group", view o.group),
    ("shape", view o.shape), ("singleton", view o.singleton), ("ext", view o.extensible),
    ("props", view (h.properties id)), ("elements", view o.elements)]

/-- The object that a value is, if it is one. -/
def viewTarget (h : Heap) (v : Value) : Json := view (v.asObject?.map h.viewObject)

def viewShape (h : Heap) (id : ShapeId) : Json :=
  let s := h.shape id
  .record [("id", view id), ("parent", view s.parent), ("key", view s.key),
    ("offset", view s.offset), ("count", view s.propertyCount)]

def viewGroup (h : Heap) (id : GroupId) : Json :=
  let g := h.group id
  .record [("id", view id), ("class", .text g.cls.name), ("proto", view g.proto),
    ("preliminary", view g.preliminary), ("unknown", view g.unknownProperties)]

/-- An object as something that can be called. -/
def viewFunction (h : Heap) (id : ObjectId) : Json :=
  let o := h.object id
  .record [("callable", view o.isCallable), ("name", view (o.function.map (·.name))),
    ("active", view o.activeCalls)]

end Heap

instance : View Zone where
  view z := .record [("needs", view z.marking), ("len", view z.barrier.size),
    ("empty", view (z.barrier.size == 0)), ("oom", view z.oomCount)]

/-- The color of a thing, and whether the barrier has reached it. -/
def Barrier.viewThing (b : Barrier) (t : Thing) : Json := view ((b.color t).name, b.isMarked t)

/-- A list of edges, and the things they lead to. -/
def Edge.viewAll (edges : List Edge) : Json :=
  .record [("edges", view edges), ("len", view edges.length), ("empty", view edges.isEmpty),
    ("things", view (Edge.things edges))]

end InlineCache
