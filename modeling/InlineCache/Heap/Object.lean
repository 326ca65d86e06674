import InlineCache.Heap.Group

namespace InlineCache

/-- The code of a native function, known by its number. -/
abbrev BodyId := Nat

/-- A function of the host. -/
structure NativeFunction where
  name : String
  body : BodyId
  /-- How many calls of the function have not returned yet. -/
  activeCalls : Nat
deriving Inhabited

/-- Named properties in slots, elements in a dense array, and perhaps a function. -/
structure Object where
  cls : ObjectClass
  group : GroupId
  /-- Whether sets of types track the object by its identity. -/
  singleton : Bool
  /-- Whether properties may be added. -/
  extensible : Bool
  shape : ShapeId
  slots : Array Value
  /-- The dense elements of an array. -/
  elements : Array Value
  function : Option NativeFunction
deriving Inhabited

namespace Object

def isCallable (o : Object) : Bool := o.function.isSome

def activeCalls (o : Object) : Nat := (o.function.map (·.activeCalls)).getD 0

/-- What a slot holds; a slot that is not there holds `undefined`. -/
def slot (o : Object) (offset : Nat) : Value := o.slots[offset]?.getD .undefined

/-- Overwrites a slot, if it is there. -/
def setSlot (o : Object) (offset : Nat) (v : Value) : Object :=
  { o with slots := o.slots.setIfInBounds offset v }

/-- The elements cut off or filled up with `undefined` to a length. -/
def resized (elements : Array Value) (size : Nat) : Array Value :=
  elements.take size ++ Array.replicate (size - elements.size) .undefined

/-- Writes an element. A gap before it is filled with `undefined`. -/
def setElement (o : Object) (index : Nat) (v : Value) : Object :=
  let elements := if index < o.elements.size then o.elements else resized o.elements (index + 1)
  { o with elements := elements.setIfInBounds index v }

def setElementCount (o : Object) (size : Nat) : Object :=
  { o with elements := resized o.elements size }

end Object

end InlineCache
