import TWay.Expr.Operator
import TWay.Expr.Basic

/-!
# Why a building step fails

Each way in which a step of building a model can fail, and the message for it.
-/

namespace TWay

/-- What an operator was to be used for (`context` of an `AssembleError`). -/
inductive OperatorUse where
  | arithmetic
  | unaryArithmetic
  | arithConstraint
  | stringConstraint
  | logicalConstraint
  | unaryLogical
deriving DecidableEq

/-- The use in the words of a message. -/
def OperatorUse.phrase : OperatorUse → String
  | .arithmetic => "arithmetic"
  | .unaryArithmetic => "unary arithmetic"
  | .arithConstraint => "arithmetic constraint"
  | .stringConstraint => "string constraint"
  | .logicalConstraint => "logical constraint"
  | .unaryLogical => "unary logical"

/-- A class of trees is given by its name (`AssembleError`). -/
inductive BuildError where
  | unknownType (keyword : String)
  | missingOperand
  | operandMismatch (lhs rhs : Family)
  | unexpectedFamily (expected : Family) (foundClass : String)
  | unexpectedOperator (op : Operator) (use : OperatorUse)
  | remainderOperands
  | castTarget (keyword : String)
  | castSource (foundClass : String)
  | boolLiteral (text : String)
  | notALiteral (param foundClass : String)
  /-- The value of the rule at this place, counted from one, is of another family. -/
  | autoValueFamily (position : Nat) (param : String) (expected found : Family)
  | emptyConcat
  | unknownParam (name : String)
  | duplicateParam (name : String)
  | autoInStrength (name : String)
  | autoInChoice (name : String)
  | emptyValue
  | valueNotFound (param text : String)
  | strengthTooLarge (available degree : Nat)
  /-- The reason at this place, counted from one, is not a constraint. -/
  | notACondition (position : Nat) (param : String)
  | optionValue (option : String)
  | unknownOption (option : String)
deriving DecidableEq

namespace BuildError

/-- What is reported of a failure. -/
def message : BuildError → String
  | .unknownType keyword => String.join ["unrecognized parameter type '", keyword, "'"]
  | .missingOperand => "encountered null operands"
  | .operandMismatch lhs rhs => String.join ["operands mismatch: ", lhs.name, " ", rhs.name]
  | .unexpectedFamily expected found =>
    String.join ["expected ", expected.name, ", found ", found]
  | .unexpectedOperator op use =>
    String.join ["unexpected ", use.phrase, " operator '", op.token, "'"]
  | .remainderOperands => "the operands of '%' must be integers"
  | .castTarget keyword => "cannot cast to type " ++ keyword
  | .castSource found => "cannot cast from " ++ found
  | .boolLiteral text => String.join ["unrecognized boolean value '", text, "'"]
  | .notALiteral param found =>
    String.join ["value for parameter ", param, " is not a literal (", found, ")"]
  | .autoValueFamily position param expected found =>
    String.join ["auto value #", toString position, " for parameter ", param, " must be a ",
      expected.name, ", found ", found.name]
  | .emptyConcat => "string concatenation needs at least one term"
  | .unknownParam name => String.join ["parameter ", name, " not found"]
  | .duplicateParam name => String.join ["parameter ", name, " is already declared"]
  | .autoInStrength name =>
    String.join ["parameter ", name, " is an auto parameter, and cannot be added to a strength"]
  | .autoInChoice name => "cannot assemble pvpair for auto parameter " ++ name
  | .emptyValue => "not a valid value"
  | .valueNotFound param text => String.join ["value not found: <", param, ",", text, ">"]
  | .strengthTooLarge available degree =>
    String.join ["the parameter list is smaller than the strength (", toString available, " < ",
      toString degree, ")"]
  | .notACondition position param =>
    String.join ["condition #", toString position, " for invalidating parameter ", param,
      " is not a condition"]
  | .optionValue option => "invalid value for option " ++ option
  | .unknownOption option => "unhandled option " ++ option

instance : ToString BuildError := ⟨message⟩

end BuildError

/-- Stopped at a reason that is not a constraint, after the constraints of earlier parameters
(`PartialInvalidations`). -/
structure Halted where
  cause : BuildError
  built : List Constraint

instance : ToString Halted := ⟨fun h => h.cause.message⟩

/-- Why a step gives nothing. -/
inductive Failure where
  | refused (e : BuildError)
  | halted (h : Halted)

namespace Failure

/-- What went wrong, however far the step had come. -/
def cause : Failure → BuildError
  | .refused e => e
  | .halted h => h.cause

instance : ToString Failure := ⟨fun f => f.cause.message⟩

end Failure

end TWay
