import TWay.Build.Draft

/-!
# When parameters are invalid

While a model is built, constraints are recorded as reasons for parameters to be invalid. From them
each parameter gets one constraint: it is invalid exactly when one of its reasons holds, and never
when it has none.
-/

namespace TWay

namespace Draft

variable {L : Type} [Logger L]

/-- The reasons recorded for one parameter (an entry of `invalidations`). -/
def reasonsFor (d : Draft) (pid : ParamId) : List Node :=
  d.reasons.filterMap fun (p, reason) => if p = pid then some reason else none

/-- The reasons as constraints, from the given place on (`precondition`). -/
def conditions (name : String) : Nat → List Node → Attempt L BuildError (List Constraint)
  | _, [] => .ok []
  | position, .constraint c :: reasons => do return c :: (← conditions name (position + 1) reasons)
  | position, _ :: _ => .fail (.notACondition position name)

/-- The parameter is invalid exactly when one of the conditions holds (the constraint that
`finalize_invalidations` builds). -/
def invalidWhen (pid : ParamId) : List Constraint → Constraint
  | [] => .not (.invalid pid)
  | c :: cs => .logic .iff (cs.foldl (.logic .or) c) (.invalid pid)

/-- The constraint for one parameter (one round of `finalize_invalidations`). -/
def invalidation (d : Draft) (pid : ParamId) (p : Param) : Attempt L BuildError Constraint :=
  invalidWhen pid <$> conditions p.name 1 (d.reasonsFor pid)

/-- The results in order, or the first failure with the results before it. -/
def collect : List (Attempt L BuildError Constraint) → Attempt L Halted (List Constraint)
  | [] => .ok []
  | x :: rest => do
    let c ← x.mapError fun cause => ⟨cause, []⟩
    let cs ← (collect rest).mapError fun h => ⟨h.cause, c :: h.built⟩
    return c :: cs

/-- One constraint for each parameter, in their order (`finalize_invalidations`). -/
def invalidations (d : Draft) : Attempt L Halted (List Constraint) :=
  collect (d.params.zipIdx.map fun (p, pid) => d.invalidation pid p)

/-- The condition that a parameter is invalid. One that is not there only gives a warning
(`build_invalidation`). -/
def marker? (d : Draft) (name : String) : Attempt L BuildError (Option Constraint) :=
  match d.params.idOf? name with
  | some pid => .ok (some (.invalid pid))
  | none => do
    .warn (missing name)
    return none

end Draft

end TWay
