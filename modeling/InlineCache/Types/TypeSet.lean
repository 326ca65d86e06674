import InlineCache.Types.PrimitiveSet

namespace InlineCache

abbrev GroupId := Nat

/-- How a set of types tells objects apart: a singleton by its own identity, any other object by its group. -/
inductive ObjectKey where
  | singleton (object : ObjectId)
  | group (group : GroupId)
deriving DecidableEq, Inhabited

/-- The types seen at a place: tags of primitives, and keys of objects. Past `TypeSet.maxObjects` keys the
set accepts any object. -/
structure TypeSet where
  primitives : PrimitiveSet
  /-- Keys in the order in which they were seen. -/
  objects : List ObjectKey
  /-- Whether any object is accepted. -/
  anyObject : Bool
  /-- Whether any value is accepted. -/
  anything : Bool
deriving DecidableEq, Inhabited

namespace TypeSet

/-- How many object keys are told apart. -/
def maxObjects : Nat := 8

def empty : TypeSet := ⟨.empty, [], false, false⟩

/-- The set of every value. -/
def unknown : TypeSet := ⟨.empty, [], true, true⟩

def isUnknown (s : TypeSet) : Bool := s.anything

def isUnknownObject (s : TypeSet) : Bool := s.anything || s.anyObject

def hasObject (s : TypeSet) (key : ObjectKey) : Bool :=
  s.anything || s.anyObject || s.objects.contains key

/-- Whether the set covers a value, where `keyOf` gives the keys of objects. Sentinels are covered by
nothing less than every value. -/
def hasValue (s : TypeSet) (keyOf : ObjectId → ObjectKey) : Value → Bool
  | .object id => s.hasObject (keyOf id)
  | .magic _ => s.anything
  | v => s.anything || s.primitives.accepts v

def addType (s : TypeSet) (t : ValueType) : TypeSet :=
  if s.anything then s else { s with primitives := s.primitives.insert t }

/-- Accepts every object from now on, and forgets the keys. -/
def markUnknownObject (s : TypeSet) : TypeSet :=
  if s.isUnknownObject then s else { s with anyObject := true, objects := [] }

/-- Accepts every value from now on, and forgets the keys. -/
def markUnknown (s : TypeSet) : TypeSet :=
  if s.anything then s else { s with anything := true, anyObject := true, objects := [] }

/-- Adds an object key; one too many widens the set to any object. -/
def addObject (s : TypeSet) (key : ObjectKey) : TypeSet :=
  if s.hasObject key then s
  else if maxObjects ≤ s.objects.length then s.markUnknownObject
  else { s with objects := s.objects ++ [key] }

/-- Adds a value. A binding that is not initialized widens the set to every value; an optimized-out
value leaves it as it is. -/
def addValue (s : TypeSet) (keyOf : ObjectId → ObjectKey) : Value → TypeSet
  | .magic .uninitializedLexical => s.markUnknown
  | .magic .optimizedOut => s
  | .object id => s.addObject (keyOf id)
  | v => s.addType v.type

/-- Whether adding changed the set. -/
def grew (before after : TypeSet) : Bool := before != after

end TypeSet

end InlineCache
