import TWay.Eval.Policy
import TWay.Expr.Basic

/-!
# The value of a tree

A tree is evaluated by recursion on itself, given how the parameters read. It fails only where the
reading of a parameter fails; of two failing operands the left one counts. A string of several terms
stops at the first one that is invalid.
-/

namespace TWay

instance : Inhabited Num := ⟨.int 0⟩

/-- How each parameter reads: as a value of one of three kinds, and whether it is invalid
(`param_num`, `param_string`, `param_bool`, `is_invalid`). -/
structure Readings (ε : Type) where
  num : ParamId → Except ε (Evaluated Num)
  string : ParamId → Except ε (Evaluated String)
  bool : ParamId → Except ε (Evaluated Bool)
  invalid : ParamId → Except ε (Evaluated Bool)

variable {ε : Type}

mutual

/-- The text that a string expression gives (`eval_string`). -/
def StrExpr.eval (r : Readings ε) : StrExpr → Except ε (Evaluated String)
  | .const value => .ok (.valid value)
  | .param pid => r.string pid
  | .concat terms => StrExpr.evalAll r terms

/-- The terms one after the other, up to an invalid one (the loop of `eval_string`). -/
def StrExpr.evalAll (r : Readings ε) : List StrExpr → Except ε (Evaluated String)
  | [] => .ok (.valid "")
  | term :: terms => do
    let first ← term.eval r
    if first.isValid then
      let rest ← StrExpr.evalAll r terms
      return Evaluated.both (fun x y => some (x ++ y)) first rest
    else return .invalid

end

mutual

/-- The number that an arithmetic expression gives (`eval_num`). -/
def ArithExpr.eval (policy : Policy) (r : Readings ε) : ArithExpr → Except ε (Evaluated Num)
  | .int value _ => .ok (.valid (.int value))
  | .double value _ => .ok (.valid (.double value))
  | .param pid type => return (← r.num pid).map fun n => n.convert type
  | .binary op type lhs rhs => do
    let a ← lhs.eval policy r
    let b ← rhs.eval policy r
    return Evaluated.both (op.result? type) a b
  | .neg operand => return (← operand.eval policy r).map Num.neg
  | .cast type operand => return (← operand.eval policy r).map fun n => n.convert type
  | .truth type operand =>
    return (← operand.eval policy r).map fun b => (Num.ofBool b).convert type

/-- The truth of a constraint (`eval_constraint`). -/
def Constraint.eval (policy : Policy) (r : Readings ε) : Constraint → Except ε (Evaluated Bool)
  | .bool value => .ok (.valid value)
  | .param pid => r.bool pid
  | .invalid pid => r.invalid pid
  | .not operand => return (← operand.eval policy r).map Bool.not
  | .logic op lhs rhs => do
    let a ← lhs.eval policy r
    let b ← rhs.eval policy r
    return policy.logic op a b
  | .arith op lhs rhs precision => do
    let a ← lhs.eval policy r
    let b ← rhs.eval policy r
    return Evaluated.both (fun x y => some (op.holds precision x y)) a b
  | .string op lhs rhs => do
    let a ← lhs.eval r
    let b ← rhs.eval r
    return Evaluated.both (fun x y => some (op.holds x y)) a b

end

/-- What a tree of any family gives. -/
inductive Evaluation where
  | num (result : Evaluated Num)
  | string (result : Evaluated String)
  | bool (result : Evaluated Bool)
deriving DecidableEq

/-- Whether the value counts. -/
def Evaluation.isValid : Evaluation → Bool
  | .num result => result.isValid
  | .string result => result.isValid
  | .bool result => result.isValid

/-- What a tree gives, whichever its family is. -/
def Node.eval (policy : Policy) (r : Readings ε) : Node → Except ε Evaluation
  | .arith e => .num <$> e.eval policy r
  | .string e => .string <$> e.eval r
  | .constraint c => .bool <$> c.eval policy r

end TWay
