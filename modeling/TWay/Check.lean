import TWay.Eval.Resolve
import TWay.Gather

/-!
# Legality of assignments

An assignment is legal when every constraint is valid and true. Constraints are looked at in order,
and the first one that does not hold decides. Several assignments are checked side by side, each by
itself.
-/

namespace TWay

/-- The outcome of a check. -/
inductive Verdict where
  | legal
  /-- The constraint at this place is valid and false. -/
  | violated (index : Nat)
  /-- The constraint at this place is invalid. -/
  | undetermined (index : Nat)
deriving DecidableEq

namespace Verdict

/-- Whether no constraint stands against the assignment (`is_legal`). -/
def isLegal : Verdict → Bool
  | .legal => true
  | _ => false

/-- The verdict on constraints that have another one before them. -/
def next : Verdict → Verdict
  | .legal => .legal
  | .violated index => .violated (index + 1)
  | .undetermined index => .undetermined (index + 1)

end Verdict

namespace Context

/-- The verdict on a list of constraints. Those behind the one that decides are not looked at (the
loop of `check`). -/
def check (ctx : Context) : List Constraint → Except EvalError Verdict
  | [] => .ok .legal
  | c :: cs => do
    let result ← ctx.constraint c
    if !result.isValid then return .undetermined 0
    else if !result.value then return .violated 0
    else Verdict.next <$> ctx.check cs

end Context

/-- The verdict on an assignment (`check`). -/
def check (constraints : List Constraint) (params : Params) (options : EvalOptions)
    (assignment : Assignment) : Except EvalError Verdict :=
  Context.check ⟨params, assignment, options.policy⟩ constraints

/-- Legality under the default options (`is_legal`). -/
def isLegal (constraints : List Constraint) (params : Params) (assignment : Assignment) :
    Except EvalError Bool :=
  Verdict.isLegal <$> check constraints params {} assignment

/-- The verdicts on several assignments, gathered from their checks (`check_all`). -/
def checkAll (gather : Gather EvalError Verdict) (constraints : List Constraint) (params : Params)
    (options : EvalOptions) (assignments : List Assignment) : Except EvalError (List Verdict) :=
  gather (assignments.map (check constraints params options))

end TWay
