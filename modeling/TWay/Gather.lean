/-!
# Gathering results

Verdicts on several assignments and reports on several strengths are worked out side by side, and
their results are then gathered. The gathering is a primitive from outside (`par_iter`, `collect`),
so that whatever does it here takes it as a parameter. What is asked of it is `Gather.Spec`, which
leaves open which failure is passed on where there are several.
-/

namespace TWay

/-- A way to gather results that may be failures. -/
abbrev Gather (ε β : Type) := List (Except ε β) → Except ε (List β)

namespace Gather

variable {ε β : Type}

/-- The results are in their order, or one of the failures is passed on. -/
structure Spec (gather : Gather ε β) : Prop where
  values : ∀ bs : List β, gather (bs.map .ok) = .ok bs
  failure : ∀ results, (∃ e, .error e ∈ results) → ∃ e, gather results = .error e ∧ .error e ∈ results

/-- A reference implementation, which looks at one result after the other. -/
def inOrder : Gather ε β := List.mapM fun result => result

end Gather

end TWay
