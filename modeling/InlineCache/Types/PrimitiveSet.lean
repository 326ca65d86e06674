import InlineCache.Value

namespace InlineCache

/-- A set of type tags, one bit for each tag. -/
structure PrimitiveSet where
  bits : BitVec 9
deriving DecidableEq, Inhabited

namespace PrimitiveSet

def empty : PrimitiveSet := ⟨0⟩

/-- The set of one tag. -/
def of (t : ValueType) : PrimitiveSet := ⟨BitVec.twoPow 9 t.index⟩

def contains (s : PrimitiveSet) (t : ValueType) : Bool := s.bits.getLsbD t.index

/-- Whether the type of a value is in the set. -/
def accepts (s : PrimitiveSet) (v : Value) : Bool := s.contains v.type

def union (s t : PrimitiveSet) : PrimitiveSet := ⟨s.bits ||| t.bits⟩

def insert (s : PrimitiveSet) (t : ValueType) : PrimitiveSet := s.union (of t)

def isSubsetOf (s t : PrimitiveSet) : Bool := s.bits &&& ~~~t.bits == 0

def isEmpty (s : PrimitiveSet) : Bool := s.bits == 0

def size (s : PrimitiveSet) : Nat := (ValueType.all.filter s.contains).length

/-- The tags in the set, in the order of tags. The tag of sentinels is not listed. -/
def toList (s : PrimitiveSet) : List ValueType :=
  ValueType.all.filter fun t => t ≠ .magic && s.contains t

def ofList (ts : List ValueType) : PrimitiveSet := ts.foldl insert empty

private theorem index_lt (t : ValueType) : t.index < 9 := by cases t <;> decide

private theorem index_inj {t u : ValueType} : t.index = u.index ↔ t = u := by
  cases t <;> cases u <;> decide

@[simp] theorem contains_empty (t : ValueType) : empty.contains t = false := by
  simp [contains, empty]

@[simp] theorem contains_of (t u : ValueType) : (of t).contains u = decide (t = u) := by
  simp [contains, of, index_inj, index_lt, eq_comm]

@[simp] theorem contains_union (s t : PrimitiveSet) (u : ValueType) :
    (s.union t).contains u = (s.contains u || t.contains u) := by
  simp [contains, union]

@[simp] theorem contains_insert (s : PrimitiveSet) (t u : ValueType) :
    (s.insert t).contains u = (s.contains u || decide (t = u)) := by
  simp [insert]

end PrimitiveSet

end InlineCache
