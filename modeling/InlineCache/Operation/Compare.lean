import InlineCache.Operation.Convert

namespace InlineCache.Operation

def compareNumbers (op : CompareOp) (a b : Double) : Bool :=
  match op with
  | .lt => a.lt b
  | .le => a.le b
  | .gt => b.lt a
  | .ge => b.le a
  | .eq | .strictEq => a.eqNumber b
  | .ne | .strictNe => !a.eqNumber b

/-- Strings are ordered by their code points. -/
def compareStrings (op : CompareOp) (a b : String) : Bool :=
  match op with
  | .lt => a < b
  | .le => !(b < a)
  | .gt => b < a
  | .ge => !(a < b)
  | .eq | .strictEq => a == b
  | .ne | .strictNe => a != b

/-- Equality without conversion. Numbers are compared by value, whatever their representation; a
sentinel equals nothing. -/
def strictEquals (lhs rhs : Value) : Bool :=
  match lhs.asNumber?, rhs.asNumber? with
  | some a, some b => a.eqNumber b
  | _, _ =>
    match lhs, rhs with
    | .undefined, .undefined | .null, .null => true
    | .boolean a, .boolean b => a == b
    | .string a, .string b => a == b
    | .symbol a, .symbol b => a == b
    | .object a, .object b => a == b
    | _, _ => false

/-- Whether a value is `undefined` or `null`. -/
def isNothing : Value → Bool
  | .undefined | .null => true
  | _ => false

/-- Equality with conversion. Nothing equals only nothing, and objects and symbols only themselves;
other values of different type are compared as numbers. -/
def looseEquals (lhs rhs : Value) : Except VmError Bool :=
  if isNothing lhs || isNothing rhs then .ok (isNothing lhs && isNothing rhs)
  else
    match lhs, rhs with
    | .object a, .object b => .ok (a == b)
    | .object _, _ | _, .object _ => .ok false
    | .symbol a, .symbol b => .ok (a == b)
    | .symbol _, _ | _, .symbol _ => .ok false
    | .string a, .string b => .ok (a == b)
    | .boolean a, .boolean b => .ok (a == b)
    | lhs, rhs => do
      let a ← toNumber lhs
      let b ← toNumber rhs
      return a.eqNumber b

/-- Order: two strings are compared as strings, all else as numbers. -/
def relational (op : CompareOp) (lhs rhs : Value) : Except VmError Bool :=
  match lhs, rhs with
  | .string a, .string b => .ok (compareStrings op a b)
  | lhs, rhs => do
    let a ← toNumber lhs
    let b ← toNumber rhs
    return compareNumbers op a b

def compare (op : CompareOp) (lhs rhs : Value) : Except VmError Bool :=
  match op with
  | .eq => looseEquals lhs rhs
  | .ne => (looseEquals lhs rhs).map not
  | .strictEq => .ok (strictEquals lhs rhs)
  | .strictNe => .ok (!strictEquals lhs rhs)
  | .lt | .le | .gt | .ge => relational op lhs rhs

end InlineCache.Operation
