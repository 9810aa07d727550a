import TWay.Decimal.Plain
import TWay.Number

/-!
# Expressions and constraints

The trees of a test model: arithmetic and string expressions over parameters, and constraints on
them. A `Node` is a tree of any of the three families. Parameters are referred to by their position
in the model's parameter list.
-/

namespace TWay

/-- The position of a parameter in the parameter list of a model. -/
abbrev ParamId := Nat

/-- The position of a value in the domain of a parameter. -/
abbrev ValueId := Nat

/-- An expression for a string. -/
inductive StrExpr where
  | const (value : String)
  | param (pid : ParamId)
  /-- The terms one after the other. -/
  | concat (terms : List StrExpr)

mutual

/-- An expression for a number. -/
inductive ArithExpr where
  /-- An integer literal, with its spelling. -/
  | int (value : Int64) (text : String)
  /-- A double literal, with its spelling. -/
  | double (value : Float) (text : String)
  | param (pid : ParamId) (type : NumType)
  | binary (op : ArithOp) (type : NumType) (lhs rhs : ArithExpr)
  | neg (operand : ArithExpr)
  | cast (type : NumType) (operand : ArithExpr)
  /-- One where the constraint is true, zero where it is false. -/
  | truth (type : NumType) (operand : Constraint)

/-- A condition on an assignment. -/
inductive Constraint where
  | bool (value : Bool)
  | param (pid : ParamId)
  /-- True where the parameter is invalid. -/
  | invalid (pid : ParamId)
  | not (operand : Constraint)
  | logic (op : LogicOp) (lhs rhs : Constraint)
  | arith (op : RelOp) (lhs rhs : ArithExpr) (precision : Float)
  | string (op : StrOp) (lhs rhs : StrExpr)

end

/-- The families of trees (`NodeKind`). -/
inductive Family where
  | arith
  | string
  | constraint
deriving DecidableEq

/-- The family in the words of a message (`fmt` of a `NodeKind`). -/
def Family.name : Family → String
  | .arith => "arithmetic expression"
  | .string => "string expression"
  | .constraint => "constraint"

/-- A tree of any family. -/
inductive Node where
  | arith (e : ArithExpr)
  | string (e : StrExpr)
  | constraint (c : Constraint)

namespace ArithExpr

/-- An integer literal in its usual spelling (`int`). -/
def ofInt (value : Int64) : ArithExpr := .int value (toString value.toInt)

/-- A double literal in plain notation (`double`). -/
def ofDouble (value : Float) : ArithExpr := .double value (Decimal.plainText value)

/-- The static type. A sum has the type that it was built with, whatever its operands are
(`num_type`). -/
def type : ArithExpr → NumType
  | .int .. => .int
  | .double .. => .double
  | .param _ type | .binary _ type _ _ | .cast type _ | .truth type _ => type
  | .neg operand => operand.type

/-- What the root of a tree is (`class_name`). -/
def className : ArithExpr → String
  | .int .. => "int constant"
  | .double .. => "double constant"
  | .param .. => "arithmetic parameter"
  | .binary .. => "binary arithmetic expression"
  | .neg _ => "negation"
  | .cast .. => "numeric cast"
  | .truth .. => "constraint cast"

end ArithExpr

namespace StrExpr

/-- What the root of a tree is (`class_name`). -/
def className : StrExpr → String
  | .const _ => "string constant"
  | .param _ => "string parameter"
  | .concat _ => "string concatenation"

end StrExpr

namespace Constraint

/-- What the root of a tree is (`class_name`). -/
def className : Constraint → String
  | .bool _ => "boolean constant"
  | .param _ => "boolean parameter"
  | .invalid _ => "invalidation marker"
  | .not _ => "negation"
  | .logic .. => "logical constraint"
  | .arith .. => "arithmetic relation"
  | .string .. => "string relation"

end Constraint

namespace Node

/-- The constant of a truth value (`boolean`). -/
def bool (value : Bool) : Node := .constraint (.bool value)

/-- The constant of a string (`string`). -/
def const (value : String) : Node := .string (.const value)

/-- The family that a tree belongs to (`kind`). -/
def family : Node → Family
  | .arith _ => .arith
  | .string _ => .string
  | .constraint _ => .constraint

/-- What the root of a tree is (`class_name`). -/
def className : Node → String
  | .arith e => e.className
  | .string e => e.className
  | .constraint c => c.className

/-- Whether the tree is a constant that could be written in a domain (`is_literal`). -/
def isLiteral : Node → Bool
  | .arith (.int ..) | .arith (.double ..) | .string (.const _) | .constraint (.bool _) => true
  | _ => false

/-- The spelling of a literal; any other tree has none (`text`). -/
def text : Node → String
  | .arith (.int _ text) | .arith (.double _ text) => text
  | .string (.const value) => value
  | .constraint (.bool value) => if value then "true" else "false"
  | _ => ""

/-- Whether the node is the constant of this truth value. -/
def isBool (value : Bool) : Node → Bool
  | .constraint (.bool b) => b == value
  | _ => false

end Node

end TWay
