import TWay.Expr.Basic
import TWay.Text.Quoted

/-!
# Trees in infix notation

How a tree is shown, given the names of the parameters. Sums and connectives stand in parentheses,
relations do not; literals keep their spelling, strings are quoted. A precision is shown in
brackets behind the operator that it applies to, unless it is zero.
-/

namespace TWay

/-- An operation in parentheses. -/
def renderGroup (lhs symbol rhs : String) : String :=
  String.join ["(", lhs, " ", symbol, " ", rhs, ")"]

/-- A relation, without parentheses. -/
def renderRelation (lhs symbol rhs : String) : String :=
  String.join [lhs, " ", symbol, " ", rhs]

/-- A name applied to an argument. -/
def renderCall (name argument : String) : String := String.join [name, "(", argument, ")"]

/-- The sign of a comparison between numbers, with the precision where there is one (the relations
of `render`). -/
def RelOp.render (op : RelOp) (precision : Float) : String :=
  if op.isEquality && precision != 0.0 then
    String.join [op.symbol, "[", Decimal.plainText precision, "]"]
  else op.symbol

mutual

/-- The infix form of a string expression (`render`). -/
def StrExpr.render (name : ParamId → String) : StrExpr → String
  | .const value => Text.quote value
  | .param pid => name pid
  | .concat terms => " + ".intercalate (StrExpr.renderAll name terms)

/-- The infix forms of the terms of a concatenation. -/
def StrExpr.renderAll (name : ParamId → String) : List StrExpr → List String
  | [] => []
  | term :: terms => term.render name :: StrExpr.renderAll name terms

end

mutual

/-- The infix form of an arithmetic expression (`render`). -/
def ArithExpr.render (name : ParamId → String) : ArithExpr → String
  | .int _ text | .double _ text => text
  | .param pid _ => name pid
  | .binary op _ lhs rhs => renderGroup (lhs.render name) op.symbol (rhs.render name)
  | .neg operand => "-" ++ operand.render name
  | .cast type operand => renderCall type.keyword (operand.render name)
  | .truth type operand => renderCall type.keyword (operand.render name)

/-- The infix form of a constraint (`render`). -/
def Constraint.render (name : ParamId → String) : Constraint → String
  | .bool value => if value then "true" else "false"
  | .param pid => name pid
  | .invalid pid => renderCall "IVLD" (name pid)
  | .not operand => "!" ++ operand.render name
  | .logic op lhs rhs => renderGroup (lhs.render name) op.symbol (rhs.render name)
  | .arith op lhs rhs precision =>
    renderRelation (lhs.render name) (op.render precision) (rhs.render name)
  | .string op lhs rhs => renderRelation (lhs.render name) op.symbol (rhs.render name)

end

/-- The infix form of a tree (`render`). -/
def Node.render (name : ParamId → String) : Node → String
  | .arith e => e.render name
  | .string e => e.render name
  | .constraint c => c.render name

end TWay
