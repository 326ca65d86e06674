import InlineCache.Heap.Basic
import InlineCache.Number.Layout
import InlineCache.Text.Quoted

namespace InlineCache

namespace Heap

/-- A value with its representation: an integer ends in `i` and a double in `d`. -/
def debugText (h : Heap) : Value → String
  | .undefined => "undefined"
  | .null => "null"
  | .boolean b => toString b
  | .int32 i => toString i.toInt ++ "i"
  | .double d => d.debugText ++ "d"
  | .string s => Text.quoted s
  | .symbol id => "Symbol(" ++ toString id.toNat ++ ")"
  | .object id => "[" ++ (h.object id).cls.name ++ " #" ++ toString id ++ "]"
  | .magic kind => "<magic " ++ kind.name ++ ">"

end Heap

namespace Text

/-- A record with named fields, on one line. -/
def debugRecord (name : String) (fields : List (String × String)) : String :=
  name ++ " \x7b " ++ ", ".intercalate (fields.map fun (f, v) => f ++ ": " ++ v) ++ " \x7d"

/-- An optional text. -/
def debugOption : Option String → String
  | none => "None"
  | some s => "Some(" ++ s ++ ")"

/-- A set, listed. -/
def debugSet (items : List String) : String := "\x7b" ++ ", ".intercalate items ++ "\x7d"

end Text

namespace Heap

def debugObject (h : Heap) (id : ObjectId) : String :=
  Text.debugRecord "JsObject" [("id", toString id), ("class", (h.object id).cls.name),
    ("group", toString (h.object id).group), ("singleton", toString (h.object id).singleton)]

def debugGroup (h : Heap) (id : GroupId) : String :=
  Text.debugRecord "ObjectGroup" [("id", toString id), ("class", (h.group id).cls.name),
    ("proto", Text.debugOption ((h.group id).proto.map toString)),
    ("preliminary", toString (h.group id).preliminary)]

def debugShape (h : Heap) (id : ShapeId) : String :=
  Text.debugRecord "Shape" [("id", toString id),
    ("key", Text.debugOption ((h.shape id).key.map Text.quoted)),
    ("offset", Text.debugOption ((h.shape id).offset.map toString)),
    ("property_count", toString (h.shape id).propertyCount)]

end Heap

def PrimitiveSet.debugText (s : PrimitiveSet) : String := Text.debugSet (s.toList.map ValueType.name)

end InlineCache
