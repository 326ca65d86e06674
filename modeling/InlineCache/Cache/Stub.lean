import InlineCache.Cache.Code
import InlineCache.Heap.Debug

namespace InlineCache

/-- A test that a value's type is one of those seen before. -/
inductive TypeGuard where
  /-- The types in the set; the tag of objects stands for all objects. -/
  | primitives (set : PrimitiveSet)
  /-- One object. -/
  | object (id : ObjectId)
  /-- The objects of a group. -/
  | group (id : GroupId)
  /-- Every value, sentinels too. -/
  | anything
deriving DecidableEq, Inhabited

namespace TypeGuard

def accepts (h : Heap) : TypeGuard → Value → Bool
  | anything, _ => true
  | _, .magic _ => false
  | primitives set, v => set.accepts v
  | object id, .object o => id == o
  | group id, .object o => id == (h.object o).group
  | _, _ => false

def kind : TypeGuard → GuardKind
  | primitives _ => .primitiveSet
  | object _ => .singleObject
  | group _ => .objectGroup
  | anything => .anyValue

/-- Whether the guard counts against the limit on guards for objects. -/
def isObjectKind : TypeGuard → Bool
  | object _ | group _ => true
  | _ => false

def primitives? : TypeGuard → Option PrimitiveSet
  | primitives set => some set
  | _ => none

def debugText : TypeGuard → String
  | primitives set => "PrimitiveSet(" ++ set.debugText ++ ")"
  | object id => "SingleObject(#" ++ toString id ++ ")"
  | group id => "ObjectGroup(#" ++ toString id ++ ")"
  | anything => "AnyValue"

end TypeGuard

/-- How a specialized stub works together with chains of type guards. -/
inductive Flavor where
  | regular
  /-- The result is checked by the guards of the entry. -/
  | monitored
  /-- The value to be stored is checked by the guards of the property. -/
  | updated
deriving DecidableEq, Inhabited

namespace Flavor

def all : List Flavor := [regular, monitored, updated]

def name : Flavor → String
  | regular => "Regular"
  | monitored => "Monitored"
  | updated => "Updated"

def ofName? (s : String) : Option Flavor := all.find? (·.name = s)

end Flavor

/-- What a stub is there for. -/
inductive StubKind where
  /-- The end of an entry's chain, which runs the operation in full. -/
  | fallback (kind : SiteKind)
  | specialized (signature : Signature) (flavor : Flavor)
  | monitorFallback
  | monitor (guard : TypeGuard)
  | updateFallback
  | update (guard : TypeGuard)
deriving DecidableEq, Inhabited

namespace StubKind

/-- The end of a chain by its name: of a chain of type guards, or of the chain of a kind of site. -/
def endOfName? : String → Option StubKind
  | "monitor" => some monitorFallback
  | "update" => some updateFallback
  | name => (SiteKind.ofName? name).map fallback

/-- Whether the stub ends its chain. -/
def isFallback : StubKind → Bool
  | fallback _ | monitorFallback | updateFallback => true
  | _ => false

/-- The signature of the stub's code; a fallback has none. -/
def codeKey? : StubKind → Option Signature
  | specialized signature _ => some signature
  | monitor guard | update guard => some (.typeGuard guard.kind)
  | _ => none

/-- The signature of a specialized stub. -/
def signature? : StubKind → Option Signature
  | specialized signature _ => some signature
  | _ => none

def flavor? : StubKind → Option Flavor
  | specialized _ flavor => some flavor
  | _ => none

def typeGuard? : StubKind → Option TypeGuard
  | monitor guard | update guard => some guard
  | _ => none

def debugText : StubKind → String
  | fallback kind => "Fallback(" ++ kind.name ++ ")"
  | specialized signature flavor =>
    Text.debugRecord "CacheIr" [("op", signature.debugText), ("flavor", flavor.name)]
  | monitorFallback => "TypeMonitorFallback"
  | monitor guard => "TypeMonitor(" ++ guard.debugText ++ ")"
  | updateFallback => "TypeUpdateFallback"
  | update guard => "TypeUpdate(" ++ guard.debugText ++ ")"

end StubKind

/-- What the guard of a specialized stub compares with. -/
inductive Payload where
  | none
  /-- A slot of objects of a class and a shape; a write pins the group too, since types are recorded
  for each group. -/
  | slot (cls : ObjectClass) (group : Option GroupId) (shape : ShapeId) (offset : Nat)
  | shape (cls : ObjectClass) (shape : ShapeId)
  /-- The move from one shape to the next that a write makes. -/
  | addSlot (group : GroupId) (old new : ShapeId)
  | callee (object : ObjectId)
  /-- A constructor, its shape, and the slot of its prototype. -/
  | prototype (ctor : ObjectId) (shape : ShapeId) (offset : Nat)
  /-- Whether objects of a shape have a key. -/
  | hasProp (shape : ShapeId) (key : PropertyKey) (present : Bool)
deriving DecidableEq, Inhabited

/-- A guard with the code that runs when it holds, or the end of a chain. A stub never changes; a type
guard is widened by building a new stub. -/
structure Stub where
  kind : StubKind
  payload : Payload
  /-- The code of the stub; a fallback has none. -/
  code : Option Code
deriving DecidableEq, Inhabited

namespace Stub

/-- The end of a chain. -/
def ending (kind : StubKind) : Stub := ⟨kind, .none, none⟩

def isFallback (s : Stub) : Bool := s.kind.isFallback

/-- Whether a type guard accepts all values of a type. -/
def acceptsType (s : Stub) (t : ValueType) : Bool :=
  match s.kind.typeGuard? with
  | some .anything => true
  | some (.primitives set) => set.contains t
  | _ => false

/-- Whether a type guard accepts a value. -/
def acceptsValue (s : Stub) (h : Heap) (v : Value) : Bool :=
  s.kind.typeGuard?.any (·.accepts h v)

def debugText (s : Stub) : String :=
  Text.debugRecord "Stub" [("kind", s.kind.debugText),
    ("code", Text.debugOption (s.code.map fun code => "CodeId(" ++ toString code.id ++ ")"))]

/-- The edges of a payload. -/
def payloadEdges : Payload → List Edge
  | .none => []
  | .slot _ group shape _ =>
    ⟨.ofShape shape, "stub-shape"⟩ ::
      (group.map fun g => (⟨.ofGroup g, "stub-group"⟩ : Edge)).toList
  | .shape _ shape | .hasProp shape _ _ => [⟨.ofShape shape, "stub-shape"⟩]
  | .addSlot group old new =>
    [⟨.ofGroup group, "stub-group"⟩, ⟨.ofShape old, "stub-old-shape"⟩,
      ⟨.ofShape new, "stub-new-shape"⟩]
  | .callee object => [⟨.ofObject object, "stub-callee"⟩]
  | .prototype ctor shape _ => [⟨.ofObject ctor, "stub-ctor"⟩, ⟨.ofShape shape, "stub-shape"⟩]

/-- The edges of a type guard. -/
def guardEdges : TypeGuard → List Edge
  | .object id => [⟨.ofObject id, "type-guard-object"⟩]
  | .group id => [⟨.ofGroup id, "type-guard-group"⟩]
  | _ => []

/-- What the stub keeps alive: its code, its payload, and what its type guard names. -/
def edges (s : Stub) : List Edge :=
  (s.code.map fun code => (⟨.ofCode code.id, "stub-code"⟩ : Edge)).toList ++
    payloadEdges s.payload ++ (s.kind.typeGuard?.map guardEdges).getD []

end Stub

/-- Everything needed to build a stub, apart from its code. -/
structure Recipe where
  signature : Signature
  kind : StubKind
  payload : Payload
deriving DecidableEq, Inhabited

namespace Recipe

def specialized (signature : Signature) (flavor : Flavor) (payload : Payload) : Recipe :=
  ⟨signature, .specialized signature flavor, payload⟩

def monitor (guard : TypeGuard) : Recipe := ⟨.typeGuard guard.kind, .monitor guard, .none⟩

def update (guard : TypeGuard) : Recipe := ⟨.typeGuard guard.kind, .update guard, .none⟩

def toStub (r : Recipe) (code : Code) : Stub := ⟨r.kind, r.payload, some code⟩

end Recipe

end InlineCache
