import TWay.Coverage.Combinations
import TWay.Param

/-!
# Strengths

A strength asks that every combination of values of `degree` of its parameters occur in a test.
-/

namespace TWay

/-- How many of which parameters are to be combined. -/
structure Strength where
  pids : List ParamId
  degree : Nat
deriving DecidableEq

/-- The selections of parameters whose values are to be combined (`subsets`). -/
def Strength.subsets (s : Strength) : List (List ParamId) :=
  (combinations s.pids.length s.degree).map fun places => places.filterMap fun i => s.pids[i]?

end TWay
