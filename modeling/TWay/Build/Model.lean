import TWay.Build.Invalidation

/-!
# Finished models

What a search for tests needs to know: the parameters, the constraints of the author, one constraint
for each parameter that says when it is invalid, and what the tests have to cover.
-/

namespace TWay

/-- A model that is ready for a search (`AssembledModel`). -/
structure Model where
  params : Params
  constraints : List Constraint
  /-- One for each parameter, in their order. -/
  invalidations : List Constraint
  strengths : List Strength
  seeds : List Seed

/-- The constraints of the author, then those on invalid parameters (`all_constraints`). -/
def Model.allConstraints (m : Model) : List Constraint := m.constraints ++ m.invalidations

/-- The draft as a model, with the constraints on invalid parameters (`finish`). -/
def Draft.finish {L : Type} [Logger L] (d : Draft) : Attempt L Halted Model := do
  let invalidations ← d.invalidations
  return ⟨d.params, d.constraints, invalidations, d.strengths, d.seeds⟩

end TWay
