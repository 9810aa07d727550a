import Mathlib.Logic.Relation
import TWay.Param
import TWay.Proofs.Expr.Uses

/-!
# What depends on what

A parameter depends on those that occur in its rules, in a condition or in a value, and whatever
they occur as. What can have a part in the evaluation of a tree is what it reaches along this
relation.
-/

namespace TWay

/-- What the rules of a parameter ask of others; one with a list of values asks nothing. -/
def Param.uses (p : Param) : List Use :=
  p.rules.flatMap fun rule => rule.condition.uses ++ rule.value.uses

/-- The second parameter occurs in a rule of the first. -/
def Params.DependsOn (params : Params) (pid other : ParamId) : Prop :=
  ∃ p, params[pid]? = some p ∧ ∃ u ∈ p.uses, u.pid = other

/-- The parameter occurs in the tree, or one that occurs in it depends on it in some steps. -/
def Node.Reaches (params : Params) (n : Node) (pid : ParamId) : Prop :=
  ∃ u ∈ n.uses, Relation.ReflTransGen params.DependsOn u.pid pid

theorem Param.uses_of_condition {p : Param} {rule : AutoRule} {u : Use} (hrule : rule ∈ p.rules)
    (hu : u ∈ rule.condition.uses) : u ∈ p.uses :=
  List.mem_flatMap.2 ⟨rule, hrule, List.mem_append_left _ hu⟩

theorem Param.uses_of_value {p : Param} {rule : AutoRule} {u : Use} (hrule : rule ∈ p.rules)
    (hu : u ∈ rule.value.uses) : u ∈ p.uses :=
  List.mem_flatMap.2 ⟨rule, hrule, List.mem_append_right _ hu⟩

end TWay
