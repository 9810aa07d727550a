import TWay.Build.Attempt
import TWay.Build.Error
import TWay.Build.Tree
import TWay.Param

/-!
# Building parameters

A parameter is built from a type keyword, a name and either literals or rules. A literal of another
kind than the type is forced into it, with a warning; a number keeps its value as far as the type
can hold it, anything else goes by its spelling.
-/

namespace TWay

/-- The kinds of literals. -/
inductive LiteralKind where
  | integer
  | double
  | string
  | boolean
deriving DecidableEq

namespace LiteralKind

/-- The kind in the words of a message (`literal_kind_name`). -/
def name : LiteralKind → String
  | .integer => "integer"
  | .double => "double"
  | .string => "string"
  | .boolean => "boolean"

/-- The kind that a literal has; any number that is not an integer counts as a double. -/
def ofNode : Node → LiteralKind
  | .arith (.int ..) => .integer
  | .arith _ => .double
  | .string _ => .string
  | .constraint _ => .boolean

/-- The kind that values of a type are written in. -/
def ofType : ParamType → LiteralKind
  | .int => .integer
  | .double => .double
  | .string => .string
  | .bool => .boolean

/-- An integer is good for a double. -/
def fits (kind : LiteralKind) (type : ParamType) : Bool :=
  kind == ofType type || (kind == .integer && type == .double)

end LiteralKind

/-- The value of a literal in a type (`coerce_literal`). -/
def Value.ofLiteral (type : ParamType) (n : Node) : Value :=
  match n, type with
  | .arith (.int i _), .int => .int i
  | .arith (.int i _), .double => .double (nearestDouble i)
  | .arith (.double x _), .int => .int (truncate x)
  | .arith (.double x _), .double => .double x
  | n, type => .ofText type n.text

/-- The entry of a domain that a literal stands for (`coerce_literal`). -/
def DomainValue.ofLiteral (type : ParamType) (n : Node) : DomainValue :=
  ⟨n.text, Value.ofLiteral type n⟩

namespace Build

variable {L : Type} [Logger L]

/-- The type that a keyword stands for (`parse` in `build_param_spec`). -/
def paramType (keyword : String) : Except BuildError ParamType :=
  match ParamType.ofKeyword? keyword with
  | some type => .ok type
  | none => .error (.unknownType keyword)

/-- One entry of a domain, from a literal (one round of `build_param_spec`). -/
def domainValue (type : ParamType) (name : String) (n : Node) : Attempt L BuildError DomainValue := do
  if !n.isLiteral then .fail (.notALiteral name n.className)
  else
    let kind := LiteralKind.ofNode n
    if !kind.fits type then
      .warn (String.join ["forcing ", kind.name, " value ", n.text, " as ",
        (LiteralKind.ofType type).name, " for parameter ", name])
    return .ofLiteral type n

/-- The entries of a domain in the order of the literals, up to one that is none. -/
def domainValues (type : ParamType) (name : String) :
    List Node → Attempt L BuildError (List DomainValue)
  | [] => .ok []
  | n :: ns => do
    let first ← domainValue type name n
    let rest ← domainValues type name ns
    return first :: rest

/-- A domain that is written as true, false. -/
def isBoolDomain : List Node → Bool
  | [a, b] => a.isBool true && b.isBool false
  | _ => false

/-- A parameter from a list of values. A boolean one has both truth values, whatever is listed
(`build_param_spec`). -/
def staticParam (keyword name : String) (values : List Node) : Attempt L BuildError Param := do
  match ← paramType keyword with
  | .bool =>
    if !(values.isEmpty || isBoolDomain values) then
      .warn (String.join ["values for boolean parameter ", name,
        " are neglected, possible format is: \"bool <param>;\" or \"bool <param>: true, false;\""])
    return .boolean name
  | type =>
    let values ← domainValues type name values
    return { name, type, domain := .values values }

/-- What is to be said of a list of rules that may not cover all cases. -/
def coverWarning? (name : String) (rules : List (Node × Node)) : Option String :=
  match rules.getLast? with
  | none => some (String.join ["the auto value specs for parameter ", name, " is empty"])
  | some (condition, _) =>
    if condition.isBool true then none
    else some (String.join ["the last condition for auto parameter ", name,
      " is not a constant true. This may cause errors if the specified conditions do not cover all",
      " the cases. Consider using a \"default\" or \"true\"."])

/-- One rule: its condition is a constraint, its value belongs to the type of the parameter (one round
of `build_auto_param_spec`). -/
def autoRule (type : ParamType) (name : String) (position : Nat) (condition value : Node) :
    Attempt L BuildError AutoRule := do
  let condition ← condition.expectConstraint
  if value.family = type.family then return ⟨condition, value⟩
  else .fail (.autoValueFamily position name type.family value.family)

/-- The rules from the given place on. -/
def autoRules (type : ParamType) (name : String) :
    Nat → List (Node × Node) → Attempt L BuildError (List AutoRule)
  | _, [] => .ok []
  | position, (condition, value) :: rules => do
    let first ← autoRule type name position condition value
    let rest ← autoRules type name (position + 1) rules
    return first :: rest

/-- A computed parameter from its rules in order (`build_auto_param_spec`). -/
def autoParam (keyword name : String) (rules : List (Node × Node)) : Attempt L BuildError Param := do
  let type ← paramType keyword
  if let some text := coverWarning? name rules then .warn text
  let rules ← autoRules type name 1 rules
  return { name, type, domain := .auto rules }

end Build

end TWay
