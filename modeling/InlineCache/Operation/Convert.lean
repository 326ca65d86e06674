import InlineCache.Heap.Debug
import InlineCache.Operation.Error

namespace InlineCache.Operation

/-- The value of something that is no number: strings are read, objects have none. -/
def toNumber : Value → Except VmError Double
  | .undefined => .ok .nan
  | .null => .ok .zero
  | .boolean b => .ok (Double.ofInt (if b then 1 else 0))
  | .int32 i => .ok (Value.doubleOfInt32 i)
  | .double d => .ok d
  | .string s => .ok (Text.toDouble s.toList)
  | .symbol _ => .error .symbolToNumber
  | .object _ => .ok .nan
  | .magic kind => .error (.magicOperand kind)

def toBoolean : Value → Bool
  | .undefined | .null | .magic _ => false
  | .boolean b => b
  | .int32 i => i != 0
  | .double d => !(d.isZero || d.isNaN)
  | .string s => s != ""
  | .symbol _ | .object _ => true

/-- The word that scripts see for the type of a value. -/
def typeOf (h : Heap) : Value → String
  | .undefined | .magic _ => "undefined"
  | .null => "object"
  | .boolean _ => "boolean"
  | .int32 _ | .double _ => "number"
  | .string _ => "string"
  | .symbol _ => "symbol"
  | .object id => if (h.object id).isCallable then "function" else "object"

/-- The text of a value. An array is the list of its elements, of which `undefined` and `null` are
left blank; an array nested deeper than `depth` is taken to hold itself. -/
def textWithin (h : Heap) (depth : Nat) (v : Value) : Except VmError String :=
  match v with
  | .string s => .ok s
  | .undefined => .ok "undefined"
  | .null => .ok "null"
  | .boolean b => .ok (toString b)
  | .int32 i => .ok (toString i.toInt)
  | .double d => .ok d.scriptText
  | .symbol _ => .error .symbolToString
  | .magic kind => .error (.magicOperand kind)
  | .object id =>
    match (h.object id).cls with
    | .array =>
      match depth with
      | 0 => .error .endlessText
      | depth + 1 => do
        let parts ← (h.object id).elements.toList.mapM fun element =>
          match element with
          | .undefined | .null => .ok ""
          | element => textWithin h depth element
        return ",".intercalate parts
    | .function =>
      .ok ("function " ++ ((h.object id).function.map (·.name)).getD "" ++
        "() \x7b [native code] \x7d")
    | .arrayIterator => .ok "[object Array Iterator]"
    | .plain => .ok "[object Object]"

/-- The text of a value. A chain of arrays without repetition is no longer than the heap. -/
def toText (h : Heap) (v : Value) : Except VmError String := textWithin h h.objects.size v

/-- The key of a property that a value names. -/
def toPropertyKey (h : Heap) (v : Value) : Except VmError PropertyKey := toText h v

/-- A value as error messages show it: a string in quotes, another value by its text, or by its
representation if it has no text. -/
def describe (h : Heap) (v : Value) : Except VmError String :=
  match v with
  | .string s => .ok (Text.quoted s)
  | v =>
    match toText h v with
    | .ok s => .ok s
    | .error .endlessText => .error .endlessText
    | .error _ => .ok (h.debugText v)

end InlineCache.Operation
