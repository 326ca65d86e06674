import InlineCache.Heap.Shape
import InlineCache.Types.TypeSet

namespace InlineCache

/-- The class of an object is that of its group. -/
inductive ObjectClass where
  | plain
  /-- Objects with dense elements. -/
  | array
  /-- Callable native functions. -/
  | function
  | arrayIterator
deriving DecidableEq, Inhabited

namespace ObjectClass

def all : List ObjectClass := [plain, array, function, arrayIterator]

def name : ObjectClass → String
  | plain => "Plain"
  | array => "Array"
  | function => "Function"
  | arrayIterator => "ArrayIterator"

def ofName? (s : String) : Option ObjectClass := all.find? (·.name = s)

end ObjectClass

/-- How a field of a typed layout is held. -/
inductive FieldRepr where
  /-- An untyped reference, `undefined` unless it is set. -/
  | any
  /-- A reference to an object, `null` unless it is set. -/
  | object
  /-- A scalar, which has no value of its own accord. -/
  | scalar
deriving DecidableEq, Inhabited

namespace FieldRepr

def all : List FieldRepr := [any, object, scalar]

def name : FieldRepr → String
  | any => "Any"
  | object => "Object"
  | scalar => "Scalar"

def ofName? (s : String) : Option FieldRepr := all.find? (·.name = s)

/-- Whether the representation implies a value, which then need not be recorded. -/
def implicitlyCovers : FieldRepr → Value → Bool
  | any, .undefined => true
  | object, .null => true
  | _, _ => false

end FieldRepr

/-- The structural class of a set of objects. The types recorded for a property are all those written to it
only if every write goes through the record; a value that the layout implies need not be recorded. -/
structure Group where
  cls : ObjectClass
  /-- The prototype of the objects, which never changes. -/
  proto : Option ObjectId
  /-- Whether a constructor is still shaping the objects. -/
  preliminary : Bool
  /-- Whether the types of properties are no longer recorded. -/
  unknownProperties : Bool
  /-- The fields of a typed layout. -/
  fields : Assoc PropertyKey FieldRepr
  /-- The types recorded for each property. -/
  properties : Assoc PropertyKey TypeSet
deriving Inhabited

namespace Group

/-- A group without prototype or layout. -/
def ofClass (cls : ObjectClass) : Group := ⟨cls, none, false, false, .empty, .empty⟩

def withProto (cls : ObjectClass) (proto : ObjectId) : Group :=
  { ofClass cls with proto := some proto }

def withFields (fields : List (PropertyKey × FieldRepr)) : Group :=
  { ofClass .plain with fields := .ofList fields }

def ofPreliminary (cls : ObjectClass) : Group := { ofClass cls with preliminary := true }

def finishPreliminary (g : Group) : Group := { g with preliminary := false }

def markUnknownProperties (g : Group) : Group :=
  { g with unknownProperties := true, properties := .empty }

def fieldRepr? (g : Group) (key : PropertyKey) : Option FieldRepr := g.fields.find? key

/-- The types recorded for a property. -/
def propertyTypes (g : Group) (key : PropertyKey) : TypeSet :=
  if g.unknownProperties then .unknown else (g.properties.find? key).getD .empty

/-- Changes the types recorded for a property, unless types are no longer recorded. -/
def widenProperty (g : Group) (key : PropertyKey) (f : TypeSet → TypeSet) : Group :=
  if g.unknownProperties then g
  else { g with properties := g.properties.set key (f (g.propertyTypes key)) }

end Group

end InlineCache
