import InlineCache.Cache.Error
import InlineCache.Inspect.View
import InlineCache.Osr.Error

namespace InlineCache

namespace View

/-- The sixteen hexadecimal digits of a 64-bit word, by which a double is shown so that nothing is lost. -/
def wordDigits (n : Nat) : String :=
  let digits := Nat.toDigits 16 n
  String.ofList (List.replicate (16 - digits.length) '0' ++ digits)

end View

instance : View Double := ⟨fun d => .text (if d.isNaN then "NaN" else View.wordDigits d.toBits.toNat)⟩

instance : View ValueType := ⟨fun t => .text t.name⟩

instance : View Value where
  view
    | .undefined => .text "undefined"
    | .null => .null
    | .boolean b => .bool b
    | .int32 i => .record [("i", .integer i.toInt)]
    | .double d => .record [("d", view d)]
    | .string s => .record [("s", .text s)]
    | .symbol n => .record [("y", view n)]
    | .object id => .record [("o", view id)]
    | .magic .uninitializedLexical => .text "uninit"
    | .magic .optimizedOut => .text "optout"

/-- What can be asked of a set of tags, with another set, a tag and a value. -/
def PrimitiveSet.summary (s other : PrimitiveSet) (type : ValueType) (v : Value) : Json :=
  let bits (t : PrimitiveSet) : Json := view t.bits.toNat
  let more := s.insert type
  .record [("bits", bits s), ("len", view s.size), ("empty", view s.isEmpty),
    ("iter", view s.toList), ("contains", view (s.contains type)), ("accepts", view (s.accepts v)),
    ("with", bits more), ("insert", .array [view (more != s), bits more]),
    ("union", bits (s.union other)), ("subset", view (s.isSubsetOf other)), ("of", bits (.of type)),
    ("debug", .text s.debugText)]

instance : View ObjectKey where
  view
    | .singleton id => .array [.text "single", view id]
    | .group id => .array [.text "group", view id]

instance : View TypeSet where
  view t := .record [("prims", view t.primitives.toList), ("objects", view t.objects),
    ("any_object", view t.isUnknownObject), ("unknown", view t.isUnknown)]

/-- What can be asked of a value. -/
def Value.summary (v : Value) : Json :=
  .record [("type", view v.type), ("bit", view (PrimitiveSet.of v.type).bits.toNat),
    ("prim_type", view v.type.isPrimitive), ("primitive", view v.isPrimitive),
    ("number", view v.isNumber), ("magic", view v.isMagic), ("as_number", view v.asNumber?),
    ("as_str", view v.asString?), ("as_object", view v.asObject?)]

instance : View VmError := ⟨fun e => View.failure e.kind.name e.message⟩

/-- A text that encodes no unit is only named. -/
instance : View BytecodeError where
  view
    | .undecodable => .record [("error", .text BytecodeError.undecodable.name)]
    | e => View.failure e.name e.message

instance : View CompileError := ⟨fun e => View.failure e.debugText e.message⟩

instance : View CacheError := ⟨fun e => View.failure e.name e.message⟩

/-- An error of an operation is shown inside. -/
instance : View OsrError where
  view
    | .vm cause => .record [("error", .text (OsrError.vm cause).name), ("vm", view cause)]
    | e => View.failure e.name e.message

end InlineCache
