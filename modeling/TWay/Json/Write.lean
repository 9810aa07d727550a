import TWay.Assignment
import TWay.Coverage.Strength
import TWay.Eval.Policy

/-!
# Writing JSON

The compact text of the records that are exchanged as data, with their fields in order.
-/

namespace TWay

/-- A key with its value, as it stands in an object. -/
def jsonField (key value : String) : String := String.join ["\"", key, "\":", value]

/-- An object of the given fields. -/
def jsonObject (fields : List String) : String :=
  String.join ["\x7b", ",".intercalate fields, "\x7d"]

/-- An array of the given items. -/
def jsonArray (items : List String) : String := String.join ["[", ",".intercalate items, "]"]

/-- The parameter, then the value. -/
def Choice.json (c : Choice) : String :=
  jsonObject [jsonField "pid" (toString c.pid), jsonField "vid" (toString c.vid)]

/-- The parameters, then how many of them are combined. -/
def Strength.json (s : Strength) : String :=
  jsonObject [jsonField "pids" (jsonArray (s.pids.map toString)),
    jsonField "degree" (toString s.degree)]

/-- The policy by its name. -/
def EvalOptions.json (o : EvalOptions) : String :=
  jsonObject [jsonField "policy" (String.join ["\"", o.policy.name, "\""])]

end TWay
