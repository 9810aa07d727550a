import TWay.Eval.Evaluated
import TWay.Expr.Operator

/-!
# Connectives on values that may be invalid

A policy says what an invalid operand does to a connective. Under `deciding`, a valid operand that
settles the result by itself wins; under `absorbing`, one invalid operand makes the result invalid.
Exclusive or and equivalence need both operands, so that the policies agree on them.
-/

namespace TWay

/-- What an invalid operand does to a connective (`InvalidPolicy`). -/
inductive Policy where
  | deciding
  | absorbing
deriving DecidableEq

namespace Policy

/-- The name of a policy in data. -/
def name : Policy → String
  | .deciding => "deciding"
  | .absorbing => "absorbing"

/-- Every policy. -/
def all : List Policy := [.deciding, .absorbing]

/-- The policy of a name. -/
def ofName? (s : String) : Option Policy := all.find? fun policy => policy.name == s

instance : Inhabited Policy := ⟨.deciding⟩

/-- The result is settled by one operand, or needs both. -/
def settle (policy : Policy) (settled : Option Bool) (plain : Evaluated Bool) : Evaluated Bool :=
  match policy, settled with
  | .deciding, some value => .valid value
  | _, _ => plain

/-- The plain connective, valid if both operands are. -/
def plain (f : Bool → Bool → Bool) (a b : Evaluated Bool) : Evaluated Bool :=
  ⟨f a.value b.value, a.isValid && b.isValid⟩

/-- A valid false operand settles a conjunction (`and`). -/
def and (policy : Policy) (a b : Evaluated Bool) : Evaluated Bool :=
  policy.settle (if a.decides false || b.decides false then some false else none)
    (plain (fun x y => x && y) a b)

/-- A valid true operand settles a disjunction (`or`). -/
def or (policy : Policy) (a b : Evaluated Bool) : Evaluated Bool :=
  policy.settle (if a.decides true || b.decides true then some true else none)
    (plain (fun x y => x || y) a b)

/-- A valid false premise or a valid true conclusion settles an implication (`imply`). -/
def imply (policy : Policy) (a b : Evaluated Bool) : Evaluated Bool :=
  policy.settle (if a.decides false || b.decides true then some true else none)
    (plain (fun x y => !x || y) a b)

/-- A connective on two values that may be invalid (the connectives of `eval_constraint`). -/
def logic (policy : Policy) : LogicOp → Evaluated Bool → Evaluated Bool → Evaluated Bool
  | .and => policy.and
  | .or => policy.or
  | .imply => policy.imply
  | .xor => plain (fun x y => x != y)
  | .iff => plain (fun x y => x == y)

end Policy

/-- What can be chosen about an evaluation. -/
structure EvalOptions where
  policy : Policy := .deciding
deriving DecidableEq

end TWay
