import TWay.Coverage.Counter
import TWay.Coverage.Strength
import TWay.Eval.Error
import TWay.Assignment
import TWay.Gather

/-!
# Coverage of a set of tests

A target of a strength is one choice of values for one selection of its parameters. A test covers a
target when it realizes all of its choices. Computed parameters have no values to choose from, so
that no target mentions them.
-/

namespace TWay

/-- Every choice of one value for each parameter, the last one changing fastest. There is none when
one of them has no values (one round of `targets`). -/
def choicesOver (pids : List ParamId) (sizes : List Nat) : List (List Choice) :=
  match sizes.mapM Digit.first? with
  | none => []
  | some start =>
    (Counter.readings start).map fun c => List.zipWith Choice.mk pids (Counter.values c)

/-- The number of values of a parameter (`domain_size`). -/
def Params.domainSize (params : Params) (pid : ParamId) : Except EvalError Nat :=
  match params[pid]? with
  | some p => .ok p.values.length
  | none => .error (.unknownParam pid params.length)

namespace Strength

/-- What the strength asks for, selection by selection (`targets`). -/
def targets (params : Params) (s : Strength) : Except EvalError (List (List Choice)) :=
  List.flatten <$> s.subsets.mapM fun pids => choicesOver pids <$> pids.mapM params.domainSize

end Strength

/-- The targets that no test realizes (`not_realized`). -/
def unrealized (tests : List Assignment) (targets : List (List Choice)) : List (List Choice) :=
  targets.filter fun target => !tests.any fun test => test.realizes target

namespace Strength

/-- What the strength asks for and the tests do not cover (`uncovered`). -/
def uncovered (params : Params) (tests : List Assignment) (s : Strength) :
    Except EvalError (List (List Choice)) :=
  unrealized tests <$> s.targets params

end Strength

/-- How far a set of tests covers a strength. -/
structure CoverageReport where
  strength : Strength
  /-- The number of targets. -/
  total : Nat
  uncovered : List (List Choice)
deriving DecidableEq

namespace CoverageReport

/-- The number of targets that some test realizes (`covered`). -/
def covered (r : CoverageReport) : Nat := r.total - r.uncovered.length

/-- Whether every target is realized (`is_complete`). -/
def isComplete (r : CoverageReport) : Bool := r.uncovered.isEmpty

/-- The covered part; of nothing, everything is covered (`ratio`). -/
def ratio (r : CoverageReport) : Float :=
  if r.total = 0 then 1.0 else Float.ofNat r.covered / Float.ofNat r.total

/-- How far the tests cover one strength (the closure of `coverage_report`). -/
def ofStrength (params : Params) (tests : List Assignment) (s : Strength) :
    Except EvalError CoverageReport := do
  let targets ← s.targets params
  return ⟨s, targets.length, unrealized tests targets⟩

end CoverageReport

/-- The reports on several strengths, gathered side by side (`coverage_report`). -/
def coverageReport (gather : Gather EvalError CoverageReport) (params : Params)
    (tests : List Assignment) (strengths : List Strength) :
    Except EvalError (List CoverageReport) :=
  gather (strengths.map (CoverageReport.ofStrength params tests))

end TWay
