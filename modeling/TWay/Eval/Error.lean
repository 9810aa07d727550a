import TWay.Param

/-!
# Why an evaluation fails

An evaluation fails only over a parameter: one that is not there, one that is read as what it is
not, or a computed one whose value depends on itself.
-/

namespace TWay

/-- What a parameter can be read as (`expected` of an `EvalError`). -/
inductive ValueKind where
  | number
  | string
  | boolean
deriving DecidableEq

/-- The kind in the words of a message. -/
def ValueKind.phrase : ValueKind → String
  | .number => "a number"
  | .string => "a string"
  | .boolean => "a boolean"

/-- Why an evaluation has no result. -/
inductive EvalError where
  /-- The identifier is beyond the list, which has this many parameters. -/
  | unknownParam (pid : ParamId) (count : Nat)
  | typeMismatch (name : String) (expected : ValueKind) (actual : ParamType)
  | autoCycle (name : String)
deriving DecidableEq

/-- What is reported of a failure (`EvalError`). -/
def EvalError.message : EvalError → String
  | .unknownParam pid count =>
    String.join ["parameter #", toString pid, " is out of range (", toString count, " parameters)"]
  | .typeMismatch name expected actual =>
    String.join ["parameter ", name, " of type ", actual.keyword, " used as ", expected.phrase]
  | .autoCycle name => String.join ["auto parameter ", name, " depends on itself"]

end TWay
