import InlineCache.Operation.Convert

namespace InlineCache.Operation

/-- A whole number as a value: an integer if it is in range, else a double. -/
def ofWhole (n : Int) : Value :=
  if -0x80000000 ≤ n ∧ n < 0x80000000 then .int32 (Int32.ofInt n) else .number (Double.ofInt n)

/-- Shift distances count modulo 32. -/
def shiftDistance (n : Int32) : Int32 := n &&& 31

/-- The shift to the right that fills with zeros. -/
def shiftRightZero (a b : Int32) : UInt32 := a.toUInt32 >>> (shiftDistance b).toUInt32

/-- Arithmetic on two numbers. Bitwise operators take their operands as 32-bit words. -/
def doubleArith (op : BinaryOp) (a b : Double) : Value :=
  match op with
  | .add => .number (a + b)
  | .sub => .number (a - b)
  | .mul => .number (a * b)
  | .div => .number (a / b)
  | .mod => .number (a % b)
  | .pow => .number (a.pow b)
  | .bitAnd => .int32 (a.toInt32 &&& b.toInt32)
  | .bitOr => .int32 (a.toInt32 ||| b.toInt32)
  | .bitXor => .int32 (a.toInt32 ^^^ b.toInt32)
  | .shiftLeft => .int32 (a.toInt32 <<< shiftDistance b.toInt32)
  | .shiftRight => .int32 (a.toInt32 >>> shiftDistance b.toInt32)
  | .shiftRightZero => .number (Double.ofNat (shiftRightZero a.toInt32 b.toInt32).toNat)

/-- Arithmetic on two 32-bit integers, with the same values as that on numbers. Products can be a negative
zero and quotients a fraction, so these go through doubles. -/
def int32Arith (op : BinaryOp) (a b : Int32) : Value :=
  match op with
  | .add => ofWhole (a.toInt + b.toInt)
  | .sub => ofWhole (a.toInt - b.toInt)
  | .bitAnd => .int32 (a &&& b)
  | .bitOr => .int32 (a ||| b)
  | .bitXor => .int32 (a ^^^ b)
  | .shiftLeft => .int32 (a <<< shiftDistance b)
  | .shiftRight => .int32 (a >>> shiftDistance b)
  | .shiftRightZero => .number (Double.ofNat (shiftRightZero a b).toNat)
  | .mul | .div | .mod | .pow => doubleArith op (Value.doubleOfInt32 a) (Value.doubleOfInt32 b)

/-- The texts of two values in a row, which is what addition does if either is a string. -/
def concat (h : Heap) (lhs rhs : Value) : Except VmError Value := do
  let left ← toText h lhs
  let right ← toText h rhs
  return .string (left ++ right)

def binaryArith (h : Heap) (op : BinaryOp) (lhs rhs : Value) : Except VmError Value :=
  if op = .add ∧ (lhs.type = .string ∨ rhs.type = .string) then concat h lhs rhs
  else
    match lhs, rhs with
    | .int32 a, .int32 b => .ok (int32Arith op a b)
    | lhs, rhs => do
      let a ← toNumber lhs
      let b ← toNumber rhs
      return doubleArith op a b

def doubleUnary (op : UnaryOp) (n : Double) : Value :=
  match op with
  | .neg => .number (-n)
  | .bitNot => .int32 (~~~n.toInt32)
  | .inc => .number (n + Double.ofInt 1)
  | .dec => .number (n - Double.ofInt 1)

/-- Unary arithmetic on a 32-bit integer. The negation of zero is a double. -/
def int32Unary (op : UnaryOp) (i : Int32) : Value :=
  match op with
  | .neg => .number (-Value.doubleOfInt32 i)
  | .bitNot => .int32 (~~~i)
  | .inc => ofWhole (i.toInt + 1)
  | .dec => ofWhole (i.toInt - 1)

def unaryArith (op : UnaryOp) (v : Value) : Except VmError Value :=
  match v with
  | .int32 i => .ok (int32Unary op i)
  | v => (toNumber v).map (doubleUnary op)

end InlineCache.Operation
