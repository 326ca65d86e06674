import InlineCache.Value

namespace InlineCache

/-- What a cache entry is used with. Most kinds of entry take one or two: a read takes the object, or the
object and the index; a write takes the value after these; a test for a property takes the key first. -/
inductive Operands where
  | none
  | unary (v : Value)
  | binary (a b : Value)
  | ternary (a b c : Value)
  | call (callee this : Value) (args : List Value)
deriving DecidableEq, Inhabited

namespace Operands

/-- At most three operands; there is no form for more. -/
def ofList? : List Value → Option Operands
  | [] => some none
  | [a] => some (unary a)
  | [a, b] => some (binary a b)
  | [a, b, c] => some (ternary a b c)
  | _ => Option.none

def unary? : Operands → Option Value
  | unary v => some v
  | _ => Option.none

def binary? : Operands → Option (Value × Value)
  | binary a b => some (a, b)
  | _ => Option.none

def ternary? : Operands → Option (Value × Value × Value)
  | ternary a b c => some (a, b, c)
  | _ => Option.none

/-- The first operand, unless the operands are those of a call. -/
def first? : Operands → Option Value
  | unary a | binary a _ | ternary a _ _ => some a
  | _ => Option.none

def callee? : Operands → Option Value
  | call callee _ _ => some callee
  | _ => Option.none

end Operands

end InlineCache
