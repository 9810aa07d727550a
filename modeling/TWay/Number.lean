import TWay.Decimal.Binary64
import TWay.Expr.Operator

/-!
# Numbers

A number is an integer of 64 bits, whose arithmetic wraps around, or a double. Two integers compare
exactly; as soon as a double is involved both count as doubles, and equality is up to a precision.
-/

namespace TWay

/-- The static type of a number. -/
inductive NumType where
  | int
  | double
deriving DecidableEq

namespace NumType

/-- The type of an operation on two numbers: a double wins (`join`). -/
def join : NumType → NumType → NumType
  | .int, .int => .int
  | _, _ => .double

/-- How the type is written (`keyword`). -/
def keyword : NumType → String
  | .int => "int"
  | .double => "double"

/-- Every type of numbers. -/
def all : List NumType := [.int, .double]

/-- The type of a keyword. -/
def ofKeyword? (s : String) : Option NumType := all.find? fun type => type.keyword == s

end NumType

/-- The nearest integer of 64 bits. -/
def clampInt64 (i : Int) : Int64 :=
  if i < Int64.minValue.toInt then Int64.minValue
  else if Int64.maxValue.toInt < i then Int64.maxValue
  else Int64.ofInt i

/--
A double without its places behind the point, kept within 64 bits. What is not a number counts as
zero (the cast in `as_i64`).
-/
def truncate (x : Float) : Int64 :=
  match Binary64.ofFloat x with
  | .nan => 0
  | .infinite negative => if negative then Int64.minValue else Int64.maxValue
  | .finite negative significand exponent =>
    let magnitude := Binary64.wholePart significand exponent
    clampInt64 (if negative then -magnitude else magnitude)

/-- The double nearest to an integer (the cast in `as_f64`). -/
def nearestDouble (i : Int64) : Float := Float.ofInt i.toInt

/-- A number as it comes out of an evaluation. -/
inductive Num where
  | int (i : Int64)
  | double (x : Float)
deriving DecidableEq

namespace Num

/-- What the number is when it comes out. -/
def type : Num → NumType
  | .int _ => .int
  | .double _ => .double

/-- The number as an integer; a double loses its places behind the point (`as_i64`). -/
def toInt : Num → Int64
  | .int i => i
  | .double x => truncate x

/-- The number as a double; an integer is rounded (`as_f64`). -/
def toDouble : Num → Float
  | .int i => nearestDouble i
  | .double x => x

/-- The number as one of the given type (`to_type`). -/
def convert (n : Num) : NumType → Num
  | .int => .int n.toInt
  | .double => .double n.toDouble

/-- The number with the other sign; the least integer is its own negative. -/
def neg : Num → Num
  | .int i => .int (-i)
  | .double x => .double (-x)

/-- Truth as a number. -/
def ofBool (b : Bool) : Num := .int (if b then 1 else 0)

end Num

namespace ArithOp

/-- An integer has no quotient and no remainder by zero; the quotient is toward zero (the integers
of `apply_arith`). -/
def onInts? (op : ArithOp) (a b : Int64) : Option Int64 :=
  match op with
  | .add => some (a + b)
  | .sub => some (a - b)
  | .mult => some (a * b)
  | .div => if b = 0 then none else some (a / b)
  | .mod => if b = 0 then none else some (a % b)

/-- Each operation rounds to the nearest double (the doubles of `apply_arith`). -/
def onDoubles (op : ArithOp) (a b : Float) : Float :=
  match op with
  | .add => a + b
  | .sub => a - b
  | .mult => a * b
  | .div => a / b
  | .mod => Binary64.remainder a b

/-- An operation of a static type, to which both operands are converted (`apply_arith`). -/
def result? (op : ArithOp) (type : NumType) (a b : Num) : Option Num :=
  match type with
  | .int => (op.onInts? a.toInt b.toInt).map .int
  | .double => some (.double (op.onDoubles a.toDouble b.toDouble))

end ArithOp

namespace RelOp

/-- The comparison of two integers (the integers of `compare`). -/
def onInts (op : RelOp) (a b : Int64) : Bool :=
  match op with
  | .eq => decide (a = b)
  | .ne => decide (a ≠ b)
  | .gt => decide (b < a)
  | .ge => decide (b ≤ a)
  | .lt => decide (a < b)
  | .le => decide (a ≤ b)

/-- Doubles are equal when their distance is within the precision, unequal when it is beyond (the
doubles of `compare`). -/
def onDoubles (op : RelOp) (precision a b : Float) : Bool :=
  match op with
  | .eq => decide ((a - b).abs ≤ precision)
  | .ne => decide (precision < (a - b).abs)
  | .gt => decide (b < a)
  | .ge => decide (b ≤ a)
  | .lt => decide (a < b)
  | .le => decide (a ≤ b)

/-- Two integers compare exactly, anything else as doubles (`compare`). -/
def holds (op : RelOp) (precision : Float) : Num → Num → Bool
  | .int a, .int b => op.onInts a b
  | a, b => op.onDoubles precision a.toDouble b.toDouble

end RelOp

end TWay
