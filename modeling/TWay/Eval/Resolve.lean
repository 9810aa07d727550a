import TWay.Assignment
import TWay.Eval.Error
import TWay.Eval.Expr

/-!
# How parameters read

A parameter with a list of values reads as the one that the assignment chooses. A computed one reads
as the value of the first of its rules whose condition holds, and reading that may in turn read
other parameters. While a computed parameter is being resolved it must not be read again:
`Context.resolving` carries the parameters that are being resolved, and the number of computed
parameters still outside bounds how deep resolutions nest.
-/

namespace TWay

/-- What an evaluation looks at (`Evaluator`). -/
structure Context where
  params : Params
  assignment : Assignment
  policy : Policy := .deciding

/-- How the values of one kind are found in a domain and among the trees. -/
structure Kind (α : Type) where
  label : ValueKind
  ofValue? : Value → Option α
  eval? : {ε : Type} → Policy → Readings ε → Node → Option (Except ε (Evaluated α))

namespace Kind

/-- Integers and doubles are both numbers, whichever the parameter's type is. -/
def number : Kind Num where
  label := .number
  ofValue?
    | .int i => some (.int i)
    | .double x => some (.double x)
    | _ => none
  eval? policy r
    | .arith e => some (e.eval policy r)
    | _ => none

/-- Strings come from string values and string expressions. -/
def string : Kind String where
  label := .string
  ofValue?
    | .string s => some s
    | _ => none
  eval? _ r
    | .string e => some (e.eval r)
    | _ => none

/-- Truth values come from boolean values and constraints. -/
def boolean : Kind Bool where
  label := .boolean
  ofValue?
    | .bool b => some b
    | _ => none
  eval? policy r
    | .constraint c => some (c.eval policy r)
    | _ => none

end Kind

variable {ε α : Type}

/-- The value of the first rule whose condition holds (`first_firing_rule`). -/
def firstFiring (policy : Policy) (r : Readings ε) : List AutoRule → Except ε (Option Node)
  | [] => .ok none
  | rule :: rules => do
    if (← rule.condition.eval policy r).holds then return some rule.value
    else firstFiring policy r rules

namespace Context

/-- The value that the assignment chooses for a parameter from a list of values (`static_value`). -/
def chosen? (ctx : Context) (pid : ParamId) (values : List DomainValue) : Option Value :=
  (ctx.assignment.valueId? pid).bind fun vid => (values[vid]?).map DomainValue.value

/--
A parameter read as a value of one kind. `enter` says how parameters read inside the rules of a
computed parameter, and `fail` how a failure is told (`param_num`, `param_string`, `param_bool`).
-/
def read [Inhabited α] (ctx : Context) (kind : Kind α) (fail : EvalError → ε)
    (enter : ParamId → Except ε (Readings ε)) (pid : ParamId) : Except ε (Evaluated α) :=
  match ctx.params[pid]? with
  | none => .error (fail (.unknownParam pid ctx.params.length))
  | some p =>
    match p.domain with
    | .values values =>
      match ctx.chosen? pid values with
      | none => .ok .invalid
      | some value =>
        match kind.ofValue? value with
        | some x => .ok (.valid x)
        | none => .error (fail (.typeMismatch p.name kind.label p.type))
    | .auto rules => do
      let inner ← enter pid
      match ← firstFiring ctx.policy inner rules with
      | none => return .invalid
      | some node =>
        (kind.eval? ctx.policy inner node).getD
          (.error (fail (.typeMismatch p.name kind.label p.type)))

/--
Whether a parameter is invalid. A computed one is when reading it is. For the others the answer is
itself invalid while they are unassigned (`is_invalid`).
-/
def readInvalid (ctx : Context) (fail : EvalError → ε) (enter : ParamId → Except ε (Readings ε))
    (pid : ParamId) : Except ε (Evaluated Bool) :=
  match ctx.params[pid]? with
  | none => .error (fail (.unknownParam pid ctx.params.length))
  | some p =>
    match p.domain with
    | .values values =>
      match ctx.assignment.get? pid with
      | none => .ok .invalid
      | some .invalid => .ok (.valid true)
      | some (.value vid) => .ok (.valid (decide (values.length ≤ vid)))
    | .auto _ => do
      let isValid ← match p.type with
        | .int | .double => Evaluated.isValid <$> ctx.read .number fail enter pid
        | .string => Evaluated.isValid <$> ctx.read .string fail enter pid
        | .bool => Evaluated.isValid <$> ctx.read .boolean fail enter pid
      return .valid !isValid

/-- How all parameters read, given how they read inside rules. -/
def readings (ctx : Context) (fail : EvalError → ε) (enter : ParamId → Except ε (Readings ε)) :
    Readings ε where
  num := ctx.read .number fail enter
  string := ctx.read .string fail enter
  bool := ctx.read .boolean fail enter
  invalid := ctx.readInvalid fail enter

/-- Whether a parameter is there and computed. -/
def isAuto (ctx : Context) (pid : ParamId) : Bool := (ctx.params[pid]?).any Param.isAuto

/-- The computed parameters that are not being resolved. -/
def unresolved (ctx : Context) (busy : List ParamId) : List ParamId :=
  (List.range ctx.params.length).filter fun pid => ctx.isAuto pid && !busy.contains pid

theorem mem_unresolved {ctx : Context} {busy : List ParamId} {pid : ParamId} :
    pid ∈ ctx.unresolved busy ↔ ctx.isAuto pid = true ∧ pid ∉ busy := by
  have : ctx.isAuto pid = true → pid < ctx.params.length := fun h => by
    by_cases hp : pid < ctx.params.length
    · exact hp
    · simp [isAuto, List.getElem?_eq_none (Nat.le_of_not_lt hp)] at h
  simp only [unresolved, List.mem_filter, List.mem_range, Bool.and_eq_true, Bool.not_eq_true',
    List.contains_eq_mem, decide_eq_false_iff_not]
  exact ⟨fun h => h.2, fun h => ⟨this h.1, h⟩⟩

/-- Each resolution leaves one computed parameter fewer. -/
theorem unresolved_cons_lt {ctx : Context} {busy : List ParamId} {pid : ParamId}
    (h : pid ∈ ctx.unresolved busy) :
    (ctx.unresolved (pid :: busy)).length < (ctx.unresolved busy).length := by
  have hcons : ctx.unresolved (pid :: busy) = (ctx.unresolved busy).filter (· != pid) := by
    simp only [unresolved, List.filter_filter]
    congr 1
    funext x
    cases hx : x == pid <;> simp_all [Bool.and_comm]
  rw [hcons, List.length_filter_lt_length_iff_exists]
  exact ⟨pid, h, by simp⟩

/--
How the parameters read while those in `busy` are being resolved. A computed parameter among them
must not be read (`while_resolving`). The list goes inward only, so that nothing has to be taken off
it: one list that is pushed and popped comes to the same (`Context.track_node`).
-/
def resolving (ctx : Context) (busy : List ParamId) : Readings EvalError :=
  ctx.readings id fun pid =>
    if _h : pid ∈ ctx.unresolved busy then .ok (ctx.resolving (pid :: busy))
    else .error (.autoCycle (ctx.params.nameOf pid))
termination_by (ctx.unresolved busy).length
decreasing_by exact unresolved_cons_lt _h

/-- How the parameters read. -/
def reading (ctx : Context) : Readings EvalError := ctx.resolving []

/-- The number that an expression gives (`eval_num`). -/
def num (ctx : Context) (e : ArithExpr) : Except EvalError (Evaluated Num) :=
  e.eval ctx.policy ctx.reading

/-- The number as an integer (`eval_int`). -/
def int (ctx : Context) (e : ArithExpr) : Except EvalError (Evaluated Int64) :=
  Evaluated.map Num.toInt <$> ctx.num e

/-- The number as a double (`eval_double`). -/
def double (ctx : Context) (e : ArithExpr) : Except EvalError (Evaluated Float) :=
  Evaluated.map Num.toDouble <$> ctx.num e

/-- The text that an expression gives (`eval_string`). -/
def string (ctx : Context) (e : StrExpr) : Except EvalError (Evaluated String) :=
  e.eval ctx.reading

/-- The truth of a constraint (`eval_constraint`). -/
def constraint (ctx : Context) (c : Constraint) : Except EvalError (Evaluated Bool) :=
  c.eval ctx.policy ctx.reading

/-- What a tree of any family gives. -/
def node (ctx : Context) (n : Node) : Except EvalError Evaluation := n.eval ctx.policy ctx.reading

end Context

end TWay
