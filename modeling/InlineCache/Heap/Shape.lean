import InlineCache.Store.Assoc
import InlineCache.Text.Numeral

namespace InlineCache

abbrev ShapeId := Nat

abbrev PropertyKey := String

namespace PropertyKey

/-- The array index a key names, if it names one. -/
def arrayIndex? (key : PropertyKey) : Option Nat := Text.arrayIndex? key

end PropertyKey

/-- The layout of the named properties of an object: their names with their slots. It is reached from an
empty root by adding one name at a time, so objects built in the same way share a shape. -/
structure Shape where
  /-- The shape this one was made from; none for a root. -/
  parent : Option ShapeId
  /-- The name that this shape added. -/
  key : Option PropertyKey
  /-- The slot of the name that this shape added. -/
  offset : Option Nat
  /-- The slots of all names. -/
  offsets : Assoc PropertyKey Nat
  /-- The shapes made from this one, by the name they added. -/
  transitions : Assoc PropertyKey ShapeId
deriving Inhabited

namespace Shape

def root : Shape := ⟨none, none, none, .empty, .empty⟩

def offsetOf? (s : Shape) (key : PropertyKey) : Option Nat := s.offsets.find? key

/-- The number of properties, and of slots. -/
def propertyCount (s : Shape) : Nat := s.offsets.size

/-- The shape with one more name, in the next slot. -/
def child (s : Shape) (id : ShapeId) (key : PropertyKey) : Shape :=
  ⟨some id, some key, some s.propertyCount, s.offsets.set key s.propertyCount, .empty⟩

end Shape

end InlineCache
