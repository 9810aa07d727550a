import TWay.Build.Draft
import TWay.Eval.Policy
import TWay.Json.Number
import TWay.Json.Read

/-!
# Data in JSON

How the types that are exchanged as data are written in JSON. A name stands as a string, or as the
only key of an object with the value null. A record is an object, or an array of its fields in
order; a field must not stand twice, and keys that are no fields are passed over, unless the type
forbids them.
-/

namespace TWay.Json

variable {α : Type}

/-- One of a set of names. -/
def asName? (ofName? : String → Option α) : Json → Option α
  | .string (some text) => ofName? text
  | .object [(some key, .null)] => ofName? key
  | _ => none

/-- Each key is a text, and each field stands at most once. -/
def isRecord (fields : List String) (closed : Bool) (entries : List (Option String × Json)) :
    Bool :=
  entries.all (fun e => e.1.any fun key => !closed || fields.contains key) &&
    fields.all fun field => decide ((entries.filter fun e => e.1 == some field).length ≤ 1)

/-- The value of each field of a record, where there is one. A closed record has no other keys. -/
def fields? (fields : List String) (closed : Bool) : Json → Option (List (Option Json))
  | .object entries =>
    if isRecord fields closed entries then
      some (fields.map fun field => (entries.find? fun e => e.1 == some field).map Prod.snd)
    else none
  | .array items =>
    if items.length ≤ fields.length then
      some (items.map some ++ List.replicate (fields.length - items.length) none)
    else none
  | _ => none

/-- A field that may be left out, for its default. -/
def orElse (default : α) (decode? : Json → Option α) : Option Json → Option α
  | none => some default
  | some j => decode? j

/-- A number, unless it is beyond all doubles. -/
def asNumber? : Json → Option Number
  | .number n => Number.ofNumeral? n
  | _ => none

/-- A natural number of 64 bits. -/
def asNat? (j : Json) : Option Nat :=
  match asNumber? j with
  | some (.unsigned n) => some n
  | _ => none

/-- Any number as a double. -/
def asFloat? (j : Json) : Option Float :=
  (asNumber? j).map fun
    | .unsigned n => Float.ofNat n
    | .negative i => nearestDouble i
    | .double x => x

/-- An array whose items all have the same form. -/
def asList? (decode? : Json → Option α) : Json → Option (List α)
  | .array items => items.mapM decode?
  | _ => none

end TWay.Json

namespace TWay

open Json

/-- An operator by its name. -/
def Operator.ofJson? : Json → Option Operator := asName? ofName?

/-- A type by its keyword. -/
def ParamType.ofJson? : Json → Option ParamType := asName? ofKeyword?

/-- A type of numbers by its keyword. -/
def NumType.ofJson? : Json → Option NumType := asName? ofKeyword?

/-- A policy by its name. -/
def Policy.ofJson? : Json → Option Policy := asName? ofName?

/-- An integer of 64 bits is an integer, any other number a double. -/
def Value.ofJson? : Json → Option Value
  | .bool b => some (.bool b)
  | .string text => text.map .string
  | j => (asNumber? j).map fun
    | .unsigned n => if n < Nat.pow 2 63 then .int (Int64.ofNat n) else .double (Float.ofNat n)
    | .negative i => .int i
    | .double x => .double x

/-- Both fields are needed. -/
def Choice.ofJson? (j : Json) : Option Choice := do
  match ← fields? ["pid", "vid"] false j with
  | [some pid, some vid] => return ⟨← asNat? pid, ← asNat? vid⟩
  | _ => none

/-- Both fields are needed. -/
def Strength.ofJson? (j : Json) : Option Strength := do
  match ← fields? ["pids", "degree"] false j with
  | [some pids, some degree] => return ⟨← asList? asNat? pids, ← asNat? degree⟩
  | _ => none

/-- Without a policy the default counts. -/
def EvalOptions.ofJson? (j : Json) : Option EvalOptions := do
  match ← fields? ["policy"] false j with
  | [policy] => return ⟨← orElse .deciding Policy.ofJson? policy⟩
  | _ => none

/-- The sign of a precision does not matter (`from_json`). -/
def BuildOptions.ofJson? (j : Json) : Option BuildOptions := do
  match ← fields? ["default_precision"] true j with
  | [precision] => return ⟨(← orElse 0.0 asFloat? precision).abs⟩
  | _ => none

end TWay
