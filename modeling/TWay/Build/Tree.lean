import TWay.Build.Attempt
import TWay.Build.Error
import TWay.Decimal.Reading

/-!
# Building trees

A tree is built from its operands, whose families and types are checked first. An operand that is
missing, because building it failed, fails every tree over it. The static type of an operation is
the join of the types of its operands.
-/

namespace TWay

/-- The precision in brackets in an operator token; without a number in it, zero
(`parse_precision`). -/
def tokenPrecision? (token : String) : Option Float :=
  let cs := token.toList
  match cs.findIdx? (· == '['), cs.findIdx? (· == ']') with
  | some left, some right =>
    if right ≤ left + 1 then none
    else
      let inner := String.ofList ((cs.drop (left + 1)).take (right - left - 1))
      some ((Decimal.leadingDouble? inner).getD 0.0).abs
  | _, _ => none

variable {L : Type} [Logger L]

namespace Node

/-- The arithmetic expression that a node has to be (`expect_arith`). -/
def expectArith (n : Node) : Attempt L BuildError ArithExpr :=
  match n with
  | .arith e => .ok e
  | n => .fail (.unexpectedFamily .arith n.className)

/-- The string expression that a node has to be. -/
def expectString (n : Node) : Attempt L BuildError StrExpr :=
  match n with
  | .string e => .ok e
  | n => .fail (.unexpectedFamily .string n.className)

/-- The constraint that a node has to be (`expect_constraint`). -/
def expectConstraint (n : Node) : Attempt L BuildError Constraint :=
  match n with
  | .constraint c => .ok c
  | n => .fail (.unexpectedFamily .constraint n.className)

end Node

namespace Build

variable {α : Type}

/-- An operand that has to be there. -/
def operand : Option α → Attempt L BuildError α
  | some x => .ok x
  | none => .fail .missingOperand

/-- Two operands that both have to be there. -/
def operands (lhs rhs : Option α) : Attempt L BuildError (α × α) := do
  return (← operand lhs, ← operand rhs)

/-- The member of a family of operators that an operator has to be. -/
def operator (op : Operator) (use : OperatorUse) : Option α → Attempt L BuildError α
  | some x => .ok x
  | none => .fail (.unexpectedOperator op use)

/-- The constant that a word stands for (`build_bool_literal`). -/
def boolLiteral (text : String) : Attempt L BuildError Constraint :=
  match text with
  | "true" => .ok (.bool true)
  | "false" => .ok (.bool false)
  | text => .fail (.boolLiteral text)

/-- An operation on two numbers; a remainder is of two integers (`build_arith_expr`). -/
def arith (op : Operator) (lhs rhs : Option Node) : Attempt L BuildError Node := do
  let (lhs, rhs) ← operands lhs rhs
  let lhs ← lhs.expectArith
  let rhs ← rhs.expectArith
  let arithOp ← operator op .arithmetic op.arith?
  if arithOp = .mod ∧ ¬(lhs.type = .int ∧ rhs.type = .int) then .fail .remainderOperands
  else return .arith (.binary arithOp (lhs.type.join rhs.type) lhs rhs)

/-- A minus sign makes a new tree, a plus sign does not (`build_unary_arith`). -/
def unaryArith (op : Operator) (a : Option Node) : Attempt L BuildError Node := do
  let e ← (← operand a).expectArith
  match op with
  | .neg => return .arith (.neg e)
  | .uplus => return .arith e
  | op => .fail (.unexpectedOperator op .unaryArithmetic)

/-- A number or a truth value as a number of the given type (`build_cast`). -/
def cast (a : Option Node) (target : String) : Attempt L BuildError Node := do
  match ← operand a with
  | .string e => .fail (.castSource e.className)
  | .arith e => return .arith (.cast (← numType) e)
  | .constraint c => return .arith (.truth (← numType) c)
where
  numType : Attempt L BuildError NumType :=
    match NumType.ofKeyword? target with
    | some type => .ok type
    | none => .fail (.castTarget target)

/-- A single term is its own concatenation (`build_string_concat`). -/
def concat (terms : List Node) : Attempt L BuildError Node := do
  if terms.isEmpty then .fail .emptyConcat
  else
    match ← terms.mapM Node.expectString with
    | [e] => return .string e
    | es => return .string (.concat es)

/-- A comparison between numbers, with the precision given (`build_arith_constraint`). -/
def arithConstraint (op : Operator) (lhs rhs : Option ArithExpr) (precision : Float) :
    Attempt L BuildError Constraint := do
  let (lhs, rhs) ← operands lhs rhs
  let relOp ← operator op .arithConstraint op.relational?
  return .arith relOp lhs rhs precision

/-- A comparison between strings, for which there is equality only (`build_string_constraint`). -/
def stringConstraint (op : Operator) (lhs rhs : Option StrExpr) :
    Attempt L BuildError Constraint := do
  let (lhs, rhs) ← operands lhs rhs
  let strOp ← operator op .stringConstraint op.string?
  return .string strOp lhs rhs

/-- A connective between two constraints (`build_logical_constraint`). -/
def logical (op : Operator) (lhs rhs : Option Node) : Attempt L BuildError Constraint := do
  let (lhs, rhs) ← operands lhs rhs
  let lhs ← lhs.expectConstraint
  let rhs ← rhs.expectConstraint
  let logicOp ← operator op .logicalConstraint op.logical?
  return .logic logicOp lhs rhs

/-- There is one operator on a single constraint, negation (`build_unary_logical`). -/
def unaryLogical (op : Operator) (a : Option Node) : Attempt L BuildError Constraint := do
  let c ← (← operand a).expectConstraint
  match op with
  | .not => return .not c
  | op => .fail (.unexpectedOperator op .unaryLogical)

/-- A warning where a token carries a precision that does not apply. -/
def neglectPrecision (explicit : Option Float) (relation : String) : Attempt L BuildError Unit :=
  if explicit.isSome then .warn (String.join ["ignoring precision for ", relation, " relation"])
  else .ok ()

/--
A relation between two operands of one family. A precision in the token applies to numbers that are
not both integers; all others get the default (`build_relational_constraint`).
-/
def relation (default : Float) (op : Operator) (lhs rhs : Option Node) (token : String) :
    Attempt L BuildError Constraint := do
  let (lhs, rhs) ← operands lhs rhs
  let explicit := tokenPrecision? token
  match lhs, rhs with
  | .arith lhs, .arith rhs =>
    if lhs.type = .int ∧ rhs.type = .int then
      neglectPrecision explicit "integer"
      arithConstraint op (some lhs) (some rhs) default
    else arithConstraint op (some lhs) (some rhs) (explicit.getD default)
  | .string lhs, .string rhs =>
    neglectPrecision explicit "string"
    stringConstraint op (some lhs) (some rhs)
  | .constraint lhs, .constraint rhs =>
    neglectPrecision explicit "bool"
    logical op (some (.constraint lhs)) (some (.constraint rhs))
  | lhs, rhs => .fail (.operandMismatch lhs.family rhs.family)

end Build

end TWay
