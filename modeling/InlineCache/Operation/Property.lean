import InlineCache.Operation.Compare
import InlineCache.Text.Units

namespace InlineCache.Operation

/-- A property of a string: its length in UTF-16 units, or one of its characters. -/
def stringProperty (s : String) (key : PropertyKey) : Value :=
  if key = "length" then .int32 (Int32.ofInt (Text.unitCount s))
  else
    match key.arrayIndex? with
    | some index =>
      match s.toList[index]? with
      | some c => .string (String.ofList [c])
      | none => .undefined
    | none => .undefined

def element (h : Heap) (id : ObjectId) (index : Nat) : Value :=
  (h.object id).elements[index]?.getD .undefined

def namedProperty (h : Heap) (id : ObjectId) (key : PropertyKey) : Value :=
  (h.getOwn? id key).getD .undefined

/-- An array's length and its elements are properties with keys of their own; all other properties of
objects are named ones in slots. Nothing is inherited. -/
def objectProperty (h : Heap) (id : ObjectId) (key : PropertyKey) : Value :=
  if (h.object id).cls = .array then
    if key = "length" then .int32 (Int32.ofInt (h.object id).elements.size)
    else
      match key.arrayIndex? with
      | some index => element h id index
      | none => namedProperty h id key
  else namedProperty h id key

def getProperty (h : Heap) (target : Value) (key : PropertyKey) : Except VmError Value :=
  match target with
  | .undefined | .null => do throw (.readOfNothing (← describe h target) key)
  | .string s => .ok (stringProperty s key)
  | .object id => .ok (objectProperty h id key)
  | .magic kind => .error (.magicOperand kind)
  | _ => .ok .undefined

/-- Goes on with what was found. If nothing was found the error is passed on, and the heap stays as it
is. -/
def given {α β : Type} (h : Heap) (found : Except VmError α) (f : α → Except VmError β × Heap) :
    Except VmError β × Heap :=
  match found with
  | .error e => (.error e, h)
  | .ok a => f a

/-- The length that a value gives to an array: a whole number below `2 ^ 32`. -/
def arrayLength (v : Value) : Except VmError Nat := do
  let len ← toNumber v
  if len.isIntegral ∧ 0 ≤ len.truncate ∧ len.truncate < 0x100000000 then return len.truncate.toNat
  else throw .invalidArrayLength

/-- The write of a named property; one that cannot be added is dropped without an error. -/
def setNamedProperty (h : Heap) (id : ObjectId) (key : PropertyKey) (v : Value) : Heap :=
  (h.setNamed id key v).2

def setArrayElement (h : Heap) (id : ObjectId) (index : Nat) (v : Value) : Heap :=
  h.modifyObject id (·.setElement index v)

/-- A write to an object, with the heap after it. -/
def setObjectProperty (h : Heap) (id : ObjectId) (key : PropertyKey) (v : Value) :
    Except VmError Unit × Heap :=
  if (h.object id).cls = .array then
    if key = "length" then
      given h (arrayLength v) fun len => (.ok (), h.modifyObject id (·.setElementCount len))
    else
      match key.arrayIndex? with
      | some index => (.ok (), setArrayElement h id index v)
      | none => (.ok (), setNamedProperty h id key v)
  else (.ok (), setNamedProperty h id key v)

/-- A write, with the heap after it. Writes to primitives are dropped. -/
def setProperty (h : Heap) (target : Value) (key : PropertyKey) (v : Value) :
    Except VmError Unit × Heap :=
  match target with
  | .undefined | .null => given h (describe h target) fun text => (.error (.writeOfNothing text key), h)
  | .object id => setObjectProperty h id key v
  | .magic kind => (.error (.magicOperand kind), h)
  | _ => (.ok (), h)

/-- The element of an array that a number names. -/
def indexOfNumber? (d : Double) : Option Nat :=
  if d.isIntegral ∧ 0 ≤ d.truncate ∧ d.truncate < Text.indexLimit then some d.truncate.toNat else none

/-- An array together with the element that an index names directly, without its text. -/
def arrayElement? (h : Heap) (target index : Value) : Option (ObjectId × Nat) :=
  match target, index.asNumber? with
  | .object id, some d =>
    if (h.object id).cls = .array then (indexOfNumber? d).map fun n => (id, n) else none
  | _, _ => none

def getElement (h : Heap) (target index : Value) : Except VmError Value :=
  match arrayElement? h target index with
  | some (id, n) => .ok (element h id n)
  | none =>
    if isNothing target then do throw (.readOfNothing (← describe h target) (← describe h index))
    else do getProperty h target (← toPropertyKey h index)

def setElement (h : Heap) (target index v : Value) : Except VmError Unit × Heap :=
  match arrayElement? h target index with
  | some (id, n) => (.ok (), setArrayElement h id n v)
  | none =>
    if isNothing target then
      given h (describe h target) fun text =>
        given h (describe h index) fun key => (.error (.writeOfNothing text key), h)
    else given h (toPropertyKey h index) fun key => setProperty h target key v

/-- A write that gives back the value written. -/
def giving (v : Value) (written : Except VmError Unit × Heap) : Except VmError Value × Heap :=
  (written.1.map fun _ => v, written.2)

/-- Whether an object itself has a property. -/
def objectHasOwn (h : Heap) (id : ObjectId) (key : PropertyKey) : Bool :=
  if (h.object id).cls = .array then
    key = "length" ||
      match key.arrayIndex? with
      | some index => index < (h.object id).elements.size
      | none => h.hasOwnNamed id key
  else h.hasOwnNamed id key

/-- The test `key in target`, for objects only. -/
def hasProperty (h : Heap) (key target : Value) : Except VmError Bool :=
  match target with
  | .object id => do return objectHasOwn h id (← toPropertyKey h key)
  | _ => do throw (.searchInPrimitive (← describe h key) (← describe h target))

def hasOwn (h : Heap) (key target : Value) : Except VmError Bool :=
  match target with
  | .undefined | .null => do throw (.nothingToObject (← describe h target))
  | .magic kind => .error (.magicOperand kind)
  | .object id => do return objectHasOwn h id (← toPropertyKey h key)
  | .string s => do
    let key ← toPropertyKey h key
    return key = "length" ||
      match key.arrayIndex? with
      | some index => index < s.length
      | none => false
  | _ => do
    let _ ← toPropertyKey h key
    return false

end InlineCache.Operation
