/-!
# Operators

The operator tokens of a model text, and the four families an operator can belong to. Which family
is meant follows from the operands, so one token may stand in several: between constraints `==` is
equivalence and `!=` is exclusive or.
-/

namespace TWay

/-- An operator as it is written. -/
inductive Operator where
  | eq | ne | gt | ge | lt | le
  | and | or | xor | imply | iff | not
  | add | sub | mult | div | mod | neg | uplus
deriving DecidableEq

/-- An operator between two numbers that gives a number. -/
inductive ArithOp where
  | add | sub | mult | div | mod
deriving DecidableEq

/-- A comparison between two numbers. -/
inductive RelOp where
  | eq | ne | gt | ge | lt | le
deriving DecidableEq

/-- A comparison between two strings (`StrRelOp`). -/
inductive StrOp where
  | eq | ne
deriving DecidableEq

/-- A connective between two constraints. -/
inductive LogicOp where
  | and | or | xor | imply | iff
deriving DecidableEq

namespace ArithOp

/-- How the operator is shown (`symbol`). -/
def symbol : ArithOp → String
  | .add => "+"
  | .sub => "-"
  | .mult => "*"
  | .div => "/"
  | .mod => "%"

end ArithOp

namespace RelOp

/-- How the operator is shown (`symbol`). -/
def symbol : RelOp → String
  | .eq => "=="
  | .ne => "!="
  | .gt => ">"
  | .ge => ">="
  | .lt => "<"
  | .le => "<="

/-- A precision applies to equality and inequality only (`is_equality`). -/
def isEquality : RelOp → Bool
  | .eq | .ne => true
  | _ => false

end RelOp

namespace StrOp

/-- How the operator is shown (`symbol`). -/
def symbol : StrOp → String
  | .eq => "=="
  | .ne => "!="

/-- Strings are equal character by character (the strings of `eval_constraint`). -/
def holds : StrOp → String → String → Bool
  | .eq, a, b => a == b
  | .ne, a, b => a != b

end StrOp

namespace LogicOp

/-- How the operator is shown (`symbol`). -/
def symbol : LogicOp → String
  | .and => "&&"
  | .or => "||"
  | .xor => "^"
  | .imply => "->"
  | .iff => "<->"

end LogicOp

namespace Operator

/-- Every operator, in the order of the type. -/
def all : List Operator :=
  [.eq, .ne, .gt, .ge, .lt, .le, .and, .or, .xor, .imply, .iff, .not,
   .add, .sub, .mult, .div, .mod, .neg, .uplus]

/-- The name of an operator in data. -/
def name : Operator → String
  | .eq => "EQ"
  | .ne => "NE"
  | .gt => "GT"
  | .ge => "GE"
  | .lt => "LT"
  | .le => "LE"
  | .and => "AND"
  | .or => "OR"
  | .xor => "XOR"
  | .imply => "IMPLY"
  | .iff => "IFF"
  | .not => "NOT"
  | .add => "ADD"
  | .sub => "SUB"
  | .mult => "MULT"
  | .div => "DIV"
  | .mod => "MOD"
  | .neg => "NEG"
  | .uplus => "UPLUS"

/-- The operator of a name in data. -/
def ofName? (s : String) : Option Operator := all.find? fun op => op.name == s

/-- How an operator is written in a model text (`token`). -/
def token : Operator → String
  | .eq => "=="
  | .ne => "!="
  | .gt => ">"
  | .ge => ">="
  | .lt => "<"
  | .le => "<="
  | .and => "&&"
  | .or => "||"
  | .xor => "^"
  | .imply => "->"
  | .iff => "<->"
  | .not => "!"
  | .add | .uplus => "+"
  | .sub | .neg => "-"
  | .mult => "*"
  | .div => "/"
  | .mod => "%"

/-- The operator between two numbers for a number (`arith`). -/
def arith? : Operator → Option ArithOp
  | .add => some .add
  | .sub => some .sub
  | .mult => some .mult
  | .div => some .div
  | .mod => some .mod
  | _ => none

/-- The operator between two numbers for a condition (`relational`). -/
def relational? : Operator → Option RelOp
  | .eq => some .eq
  | .ne => some .ne
  | .gt => some .gt
  | .ge => some .ge
  | .lt => some .lt
  | .le => some .le
  | _ => none

/-- The operator between two strings for a condition (the cases of `build_string_constraint`). -/
def string? : Operator → Option StrOp
  | .eq => some .eq
  | .ne => some .ne
  | _ => none

/-- Between constraints, equality is equivalence and inequality is exclusive or (`logical`). -/
def logical? : Operator → Option LogicOp
  | .and => some .and
  | .or => some .or
  | .xor | .ne => some .xor
  | .imply => some .imply
  | .iff | .eq => some .iff
  | _ => none

end Operator

end TWay
