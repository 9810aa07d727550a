import TWay.Expr.Basic

/-!
# What a tree asks of the parameters

A tree reaches the parameters only at its leaves. A `Use` is such a leaf: a parameter, and what it
is read as there. An evaluation looks at the parameters through the uses of its tree and in no other
way, so that a property of trees which only concerns parameters is one of their uses. Beside the
uses, a tree can only go without a result at its operations on numbers.
-/

namespace TWay

/-- A parameter as it occurs in a tree. -/
inductive Use where
  /-- Read as a number that counts as one of this type. -/
  | number (pid : ParamId) (type : NumType)
  | string (pid : ParamId)
  | truth (pid : ParamId)
  /-- Asked whether it is invalid. -/
  | validity (pid : ParamId)

/-- The parameter that occurs. -/
def Use.pid : Use → ParamId
  | .number pid _ | .string pid | .truth pid | .validity pid => pid

mutual

def StrExpr.uses : StrExpr → List Use
  | .const _ => []
  | .param pid => [.string pid]
  | .concat terms => StrExpr.usesAll terms

def StrExpr.usesAll : List StrExpr → List Use
  | [] => []
  | term :: terms => term.uses ++ StrExpr.usesAll terms

end

mutual

def ArithExpr.uses : ArithExpr → List Use
  | .int .. | .double .. => []
  | .param pid type => [.number pid type]
  | .binary _ _ lhs rhs => lhs.uses ++ rhs.uses
  | .neg operand | .cast _ operand => operand.uses
  | .truth _ operand => operand.uses

def Constraint.uses : Constraint → List Use
  | .bool _ => []
  | .param pid => [.truth pid]
  | .invalid pid => [.validity pid]
  | .not operand => operand.uses
  | .logic _ lhs rhs => lhs.uses ++ rhs.uses
  | .arith _ lhs rhs _ => lhs.uses ++ rhs.uses
  | .string _ lhs rhs => lhs.uses ++ rhs.uses

end

def Node.uses : Node → List Use
  | .arith e => e.uses
  | .string e => e.uses
  | .constraint c => c.uses

mutual

/-- The operations on two numbers in a tree, each with the type it was built with. -/
def ArithExpr.operations : ArithExpr → List (ArithOp × NumType)
  | .int .. | .double .. | .param .. => []
  | .binary op type lhs rhs => (op, type) :: (lhs.operations ++ rhs.operations)
  | .neg operand | .cast _ operand => operand.operations
  | .truth _ operand => operand.operations

def Constraint.operations : Constraint → List (ArithOp × NumType)
  | .bool _ | .param _ | .invalid _ | .string .. => []
  | .not operand => operand.operations
  | .logic _ lhs rhs => lhs.operations ++ rhs.operations
  | .arith _ lhs rhs _ => lhs.operations ++ rhs.operations

end

def Node.operations : Node → List (ArithOp × NumType)
  | .arith e => e.operations
  | .string _ => []
  | .constraint c => c.operations

theorem StrExpr.mem_usesAll {u : Use} {terms : List StrExpr} :
    u ∈ StrExpr.usesAll terms ↔ ∃ term ∈ terms, u ∈ term.uses := by
  induction terms with
  | nil => simp [StrExpr.usesAll]
  | cons term terms ih => simp [StrExpr.usesAll, ih]

/-- A literal asks nothing. -/
theorem Node.uses_of_isLiteral {n : Node} (h : n.isLiteral = true) : n.uses = [] := by
  unfold Node.isLiteral at h
  split at h <;> first | rfl | cases h

theorem Node.operations_of_isLiteral {n : Node} (h : n.isLiteral = true) : n.operations = [] := by
  unfold Node.isLiteral at h
  split at h <;> first | rfl | cases h

end TWay
