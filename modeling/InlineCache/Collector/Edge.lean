import InlineCache.Heap.Basic

namespace InlineCache

abbrev CodeId := Nat

/-- The things that the collector tells apart. -/
inductive ThingKind where
  | code | object | group | shape
deriving DecidableEq, Inhabited

namespace ThingKind

def all : List ThingKind := [code, object, group, shape]

def name : ThingKind → String
  | code => "Code"
  | object => "Object"
  | group => "Group"
  | shape => "Shape"

def ofName? (s : String) : Option ThingKind := all.find? (·.name = s)

/-- The place of the kind in the order of things. -/
def index : ThingKind → Nat
  | code => 0
  | object => 1
  | group => 2
  | shape => 3

end ThingKind

/-- A collected thing: its kind and its number among those of its kind. -/
structure Thing where
  kind : ThingKind
  id : Nat
deriving DecidableEq, Inhabited

namespace Thing

def ofCode (id : CodeId) : Thing := ⟨.code, id⟩

def ofObject (id : ObjectId) : Thing := ⟨.object, id⟩

def ofGroup (id : GroupId) : Thing := ⟨.group, id⟩

def ofShape (id : ShapeId) : Thing := ⟨.shape, id⟩

/-- Things are ordered by kind, then by number. -/
def le (a b : Thing) : Bool :=
  a.kind.index < b.kind.index || (a.kind.index == b.kind.index && a.id ≤ b.id)

/-- The things in ascending order. -/
def sorted (things : List Thing) : List Thing := things.mergeSort le

end Thing

/-- A thing that is kept alive, under the name that its owner gives it. -/
structure Edge where
  thing : Thing
  name : String
deriving DecidableEq, Inhabited

/-- The distinct things that edges lead to, in ascending order. -/
def Edge.things (edges : List Edge) : List Thing :=
  Thing.sorted (edges.map (·.thing)).eraseDups

namespace Heap

/-- The edges of an object: its shape, its group, and the objects in its slots and elements. -/
def objectEdges (h : Heap) (id : ObjectId) : List Edge :=
  let o := h.object id
  [⟨.ofShape o.shape, "object-shape"⟩, ⟨.ofGroup o.group, "object-group"⟩] ++
    (o.slots.toList ++ o.elements.toList).filterMap fun v =>
      v.asObject?.map fun held => ⟨.ofObject held, "object-slot"⟩

/-- The edges of a group: itself and its prototype. -/
def groupEdges (h : Heap) (id : GroupId) : List Edge :=
  ⟨.ofGroup id, "group"⟩ ::
    ((h.group id).proto.map fun proto => (⟨.ofObject proto, "group-proto"⟩ : Edge)).toList

/-- The edges of a shape: the shape it was made from. -/
def shapeEdges (h : Heap) (id : ShapeId) : List Edge :=
  ((h.shape id).parent.map fun parent => (⟨.ofShape parent, "shape-parent"⟩ : Edge)).toList

end Heap

end InlineCache
