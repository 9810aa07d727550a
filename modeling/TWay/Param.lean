import TWay.Decimal.Reading
import TWay.Expr.Render

/-!
# Parameters

A parameter has a type and a domain: either a list of values to choose from, each with the spelling
that it is found by, or rules that compute its value from other parameters. Main definitions:
`DomainValue.coerce`, the value of a spelling in a type, and `Param.valueId?`, the place of a
spelling in the domain.
-/

namespace TWay

/-- The declared type of a parameter. -/
inductive ParamType where
  | int
  | double
  | string
  | bool
deriving DecidableEq

namespace ParamType

/-- How the type is written (`keyword`). -/
def keyword : ParamType → String
  | .int => "int"
  | .double => "double"
  | .string => "string"
  | .bool => "bool"

/-- Every type of parameters. -/
def all : List ParamType := [.int, .double, .string, .bool]

/-- The type of a keyword (`from_str`). -/
def ofKeyword? (s : String) : Option ParamType := all.find? fun type => type.keyword == s

/-- The type of the numbers that a numeric parameter takes (`num_type`). -/
def numType? : ParamType → Option NumType
  | .int => some .int
  | .double => some .double
  | .string | .bool => none

/-- The family of the expressions that give a value of this type (`expected` in
`build_auto_param_spec`). -/
def family : ParamType → Family
  | .int | .double => .arith
  | .string => .string
  | .bool => .constraint

/-- The tree that reads a parameter of this type (the cases of `build_param_reference`). -/
def reference (type : ParamType) (pid : ParamId) : Node :=
  match type with
  | .int => .arith (.param pid .int)
  | .double => .arith (.param pid .double)
  | .string => .string (.param pid)
  | .bool => .constraint (.param pid)

end ParamType

/-- A value that a parameter can take. -/
inductive Value where
  | bool (value : Bool)
  | int (value : Int64)
  | double (value : Float)
  | string (value : String)
deriving DecidableEq

/-- An entry of a domain: a value, with the spelling that it is found by (`ParamValue`). -/
structure DomainValue where
  text : String
  value : Value
deriving DecidableEq

/-- The value of a spelling. Numbers are read from its start and count as zero without one (the
cases of `coerce`). -/
def Value.ofText (type : ParamType) (text : String) : Value :=
  match type with
  | .int => .int ((Decimal.leadingInt? text).getD 0)
  | .double => .double ((Decimal.leadingDouble? text).getD 0.0)
  | .string => .string text
  | .bool => .bool (text == "true")

/-- The entry of a domain for a spelling (`coerce`). -/
def DomainValue.coerce (type : ParamType) (text : String) : DomainValue :=
  ⟨text, Value.ofText type text⟩

/-- A value for a computed parameter, and the condition under which it applies. -/
structure AutoRule where
  condition : Constraint
  value : Node

/-- What a parameter can be. -/
inductive Domain where
  | values (values : List DomainValue)
  /-- The first rule whose condition holds gives the value. -/
  | auto (rules : List AutoRule)

/-- One dimension of a test (`ParamSpec`). -/
structure Param where
  name : String
  type : ParamType
  domain : Domain
  /-- An auxiliary parameter takes no part in the default coverage. -/
  aux : Bool := false

namespace Param

/-- Both truth values, true first (`boolean`). -/
def boolean (name : String) : Param where
  name
  type := .bool
  domain := .values (["true", "false"].map (DomainValue.coerce .bool))

/-- Whether the value is computed (`is_auto`). -/
def isAuto (p : Param) : Bool :=
  match p.domain with
  | .values _ => false
  | .auto _ => true

/-- The values to choose from; a computed parameter has none (`values`). -/
def values (p : Param) : List DomainValue :=
  match p.domain with
  | .values values => values
  | .auto _ => []

/-- The rules of a computed parameter; any other has none (`auto_rules`). -/
def rules (p : Param) : List AutoRule :=
  match p.domain with
  | .values _ => []
  | .auto rules => rules

/-- Whether the parameter takes part in the default coverage (`is_coverable`). -/
def isCoverable (p : Param) : Bool := !p.aux && !p.isAuto

/-- The first value with this spelling (`query_value_id`). -/
def valueId? (p : Param) (text : String) : Option ValueId :=
  p.values.findIdx? fun v => v.text == text

end Param

/-- The parameters of a model; an identifier is a position in it. -/
abbrev Params := List Param

namespace Params

/-- The first parameter of this name (`find_param_id`). -/
def idOf? (params : Params) (name : String) : Option ParamId :=
  params.findIdx? fun p => p.name == name

/-- The name by which a parameter is shown; an identifier beyond the list is shown as its number
(`param_name`). -/
def nameOf (params : Params) (pid : ParamId) : String :=
  match params[pid]? with
  | some p => p.name
  | none => "#" ++ toString pid

end Params

/-- The tree as it is shown in a model with these parameters (`display`). -/
def Node.display (params : Params) (n : Node) : String := n.render params.nameOf

/-- The constraint as it is shown in a model with these parameters (`display`). -/
def Constraint.display (params : Params) (c : Constraint) : String := c.render params.nameOf

end TWay
