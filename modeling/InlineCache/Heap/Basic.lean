import InlineCache.Heap.Object
import InlineCache.Store.Table

namespace InlineCache

/-- Shapes, groups and objects, each in a table of its own. Nothing is ever removed, so an identity stays
good. Every heap starts with a root shape and a group for each class of objects. -/
structure Heap where
  objects : Table Object
  groups : Table Group
  shapes : Table Shape
deriving Inhabited

namespace Heap

/-- The shape without properties from which objects start. -/
def rootShape : ShapeId := 1

def plainGroup : GroupId := 1

def arrayGroup : GroupId := 2

def functionGroup : GroupId := 3

def iteratorGroup : GroupId := 4

/-- A heap without objects, with the root shape and a group for each class. -/
def initial : Heap :=
  ⟨.empty, ⟨#[.ofClass .plain, .ofClass .array, .ofClass .function, .ofClass .arrayIterator]⟩,
    ⟨#[.root]⟩⟩

def object (h : Heap) (id : ObjectId) : Object := h.objects.get id

def group (h : Heap) (id : GroupId) : Group := h.groups.get id

def shape (h : Heap) (id : ShapeId) : Shape := h.shapes.get id

def modifyObject (h : Heap) (id : ObjectId) (f : Object → Object) : Heap :=
  { h with objects := h.objects.modify id f }

def modifyGroup (h : Heap) (id : GroupId) (f : Group → Group) : Heap :=
  { h with groups := h.groups.modify id f }

/-- The shape of an object. -/
def shapeOf (h : Heap) (id : ObjectId) : Shape := h.shape (h.object id).shape

/-- The group of an object. -/
def groupOf (h : Heap) (id : ObjectId) : Group := h.group (h.object id).group

/-- The key under which sets of types track an object. -/
def objectKey (h : Heap) (id : ObjectId) : ObjectKey :=
  if (h.object id).singleton then .singleton id else .group (h.object id).group

/-- A new root shape. -/
def addRoot (h : Heap) : ShapeId × Heap :=
  (h.shapes.next, { h with shapes := h.shapes.add .root })

/-- The shape that adds a name to a shape, made if it has not been made before. -/
def transition (h : Heap) (id : ShapeId) (key : PropertyKey) : ShapeId × Heap :=
  match (h.shape id).transitions.find? key with
  | some next => (next, h)
  | none =>
    let next := h.shapes.next
    let shapes := h.shapes.modify id fun s => { s with transitions := s.transitions.set key next }
    (next, { h with shapes := shapes.add ((h.shape id).child id key) })

/-- The names that a shape and those it was made from have added, the last one first. A shape is made
from one that is older. -/
def addedKeys (h : Heap) (id : ShapeId) : List PropertyKey :=
  match (h.shape id).parent, (h.shape id).key with
  | some parent, some key => if parent < id then key :: addedKeys h parent else [key]
  | _, _ => []
termination_by id

def addGroup (h : Heap) (g : Group) : GroupId × Heap :=
  (h.groups.next, { h with groups := h.groups.add g })

/-- Whether a value is covered by the types recorded for a property of a group. -/
def propertyHasValue (h : Heap) (group : GroupId) (key : PropertyKey) (v : Value) : Bool :=
  ((h.group group).propertyTypes key).hasValue h.objectKey v

/-- Records a value of a property of a group. -/
def addPropertyType (h : Heap) (group : GroupId) (key : PropertyKey) (v : Value) : Heap :=
  h.modifyGroup group (·.widenProperty key (·.addValue h.objectKey v))

def addObject (h : Heap) (o : Object) : ObjectId × Heap :=
  (h.objects.next, { h with objects := h.objects.add o })

/-- A new object without properties. -/
def bareObject (cls : ObjectClass) (group : GroupId) (singleton : Bool) : Object :=
  ⟨cls, group, singleton, true, rootShape, #[], #[], none⟩

def newObject (h : Heap) (group : GroupId) : ObjectId × Heap :=
  h.addObject (bareObject .plain group false)

/-- A new object that is tracked by its identity. -/
def newSingleton (h : Heap) (group : GroupId) : ObjectId × Heap :=
  h.addObject (bareObject .plain group true)

def newArray (h : Heap) (group : GroupId) (elements : Array Value) : ObjectId × Heap :=
  h.addObject { bareObject .array group false with elements := elements }

/-- A new native function. Functions are tracked by identity. -/
def newFunction (h : Heap) (name : String) (body : BodyId) : ObjectId × Heap :=
  h.addObject { bareObject .function functionGroup true with function := some ⟨name, body, 0⟩ }

/-- The value of a named property of the object itself. -/
def getOwn? (h : Heap) (id : ObjectId) (key : PropertyKey) : Option Value :=
  ((h.shapeOf id).offsetOf? key).map (h.object id).slot

def hasOwnNamed (h : Heap) (id : ObjectId) (key : PropertyKey) : Bool :=
  ((h.shapeOf id).offsetOf? key).isSome

/-- Puts a value in a new slot and moves the object to another shape. -/
def appendSlot (h : Heap) (id : ObjectId) (shape : ShapeId) (v : Value) : Heap :=
  h.modifyObject id fun o => { o with slots := o.slots.push v, shape := shape }

/-- Writes a named property and says whether it was written: a property that is missing is added, but
not to an object that is not extensible. -/
def setNamed (h : Heap) (id : ObjectId) (key : PropertyKey) (v : Value) : Bool × Heap :=
  match (h.shapeOf id).offsetOf? key with
  | some offset => (true, h.modifyObject id (·.setSlot offset v))
  | none =>
    if (h.object id).extensible then
      let (next, h) := h.transition (h.object id).shape key
      (true, h.appendSlot id next v)
    else (false, h)

/-- Adds a slot by moving an extensible object from one shape to another, and says whether the object
had the first shape. -/
def addSlot (h : Heap) (id : ObjectId) (expected next : ShapeId) (v : Value) : Bool × Heap :=
  if (h.object id).shape = expected ∧ (h.object id).extensible then (true, h.appendSlot id next v)
  else (false, h)

def preventExtensions (h : Heap) (id : ObjectId) : Heap :=
  h.modifyObject id ({ · with extensible := false })

/-- Writes named properties in order. -/
def setAll (h : Heap) (id : ObjectId) (props : List (PropertyKey × Value)) : Heap :=
  props.foldl (fun h p => (h.setNamed id p.1 p.2).2) h

/-- A new iterator at the start of an array. -/
def newArrayIterator (h : Heap) (target : ObjectId) : ObjectId × Heap :=
  let (id, h) := h.addObject (bareObject .arrayIterator iteratorGroup false)
  (id, h.setAll id [("target", .object target), ("nextIndex", .int32 0)])

/-- The named properties of an object in the order in which its shape gained them. A name that was added
twice is there twice, both times with its value of now. -/
def properties (h : Heap) (id : ObjectId) : List (PropertyKey × Value) :=
  (h.addedKeys (h.object id).shape).reverse.map fun key =>
    (key, (h.getOwn? id key).getD .undefined)

end Heap

end InlineCache
