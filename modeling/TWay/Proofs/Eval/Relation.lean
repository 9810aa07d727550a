import TWay.Eval.Expr
import TWay.Proofs.Except
import TWay.Proofs.Expr.Uses

/-!
# Two evaluations of one tree

To compare two evaluations of a tree (under two assignments, before and after a declaration, with
and without the check for cycles) it is enough to say how their results are to be related and that
each operation on trees keeps the relation. Then the results of every tree are related as soon as
the readings of its uses are: `StrExpr.eval_related`, `ArithExpr.eval_related` and
`Constraint.eval_related`. A relation that not every operation on numbers keeps is one of the trees
that do without the others (`ArithExpr.eval_relatedWhere`, `Constraint.eval_relatedWhere`).
-/

namespace TWay

variable {ε ε' : Type}

/-- A relation between what two evaluations give, for values of every kind. -/
abbrev ResultRel (ε ε' : Type) :=
  (α : Type) → Except ε (Evaluated α) → Except ε' (Evaluated α) → Prop

/-- A term of a string in front of the others; an invalid one keeps them from being looked at. -/
def appendTerm (first rest : Except ε (Evaluated String)) : Except ε (Evaluated String) := do
  let a ← first
  if a.isValid then
    let b ← rest
    return Evaluated.both (fun x y => some (x ++ y)) a b
  else return .invalid

namespace ResultRel

/-- The two readings of a parameter are related in the way in which a tree uses it. -/
def At (R : ResultRel ε ε') (r : Readings ε) (r' : Readings ε') : Use → Prop
  | .number pid _ => R Num (r.num pid) (r'.num pid)
  | .string pid => R String (r.string pid) (r'.string pid)
  | .truth pid => R Bool (r.bool pid) (r'.bool pid)
  | .validity pid => R Bool (r.invalid pid) (r'.invalid pid)

/-- The operations on numbers and truth values keep the relation, each side under its policy. -/
structure Kept (R : ResultRel ε ε') (policy policy' : Policy) : Prop where
  valid : ∀ {α : Type} (a : α), R α (.ok (.valid a)) (.ok (.valid a))
  map : ∀ {α β : Type} (f : α → β) {x : Except ε (Evaluated α)} {x' : Except ε' (Evaluated α)},
    R α x x' → R β (do return (← x).map f) (do return (← x').map f)
  both : ∀ {α β γ : Type} [Inhabited γ] (f : α → β → Option γ)
    {x : Except ε (Evaluated α)} {x' : Except ε' (Evaluated α)}
    {y : Except ε (Evaluated β)} {y' : Except ε' (Evaluated β)},
    R α x x' → R β y y' →
      R γ (do let a ← x; let b ← y; return .both f a b)
        (do let a ← x'; let b ← y'; return .both f a b)
  logic : ∀ (op : LogicOp) {x y : Except ε (Evaluated Bool)} {x' y' : Except ε' (Evaluated Bool)},
    R Bool x x' → R Bool y y' →
      R Bool (do let a ← x; let b ← y; return policy.logic op a b)
        (do let a ← x'; let b ← y'; return policy'.logic op a b)

/-- The operations keep the relation, those on two numbers as far as they are allowed. -/
structure KeptWhere (R : ResultRel ε ε') (policy policy' : Policy)
    (allowed : ArithOp → NumType → Prop) : Prop where
  valid : ∀ {α : Type} (a : α), R α (.ok (.valid a)) (.ok (.valid a))
  map : ∀ {α β : Type} (f : α → β) {x : Except ε (Evaluated α)} {x' : Except ε' (Evaluated α)},
    R α x x' → R β (do return (← x).map f) (do return (← x').map f)
  operation : ∀ {op : ArithOp} {type : NumType}, allowed op type →
    ∀ {x y : Except ε (Evaluated Num)} {x' y' : Except ε' (Evaluated Num)},
      R Num x x' → R Num y y' →
        R Num (do let a ← x; let b ← y; return .both (op.result? type) a b)
          (do let a ← x'; let b ← y'; return .both (op.result? type) a b)
  comparison : ∀ {α β : Type} (f : α → β → Bool)
    {x : Except ε (Evaluated α)} {x' : Except ε' (Evaluated α)}
    {y : Except ε (Evaluated β)} {y' : Except ε' (Evaluated β)},
    R α x x' → R β y y' →
      R Bool (do let a ← x; let b ← y; return .both (fun x y => some (f x y)) a b)
        (do let a ← x'; let b ← y'; return .both (fun x y => some (f x y)) a b)
  logic : ∀ (op : LogicOp) {x y : Except ε (Evaluated Bool)} {x' y' : Except ε' (Evaluated Bool)},
    R Bool x x' → R Bool y y' →
      R Bool (do let a ← x; let b ← y; return policy.logic op a b)
        (do let a ← x'; let b ← y'; return policy'.logic op a b)

theorem Kept.everywhere {R : ResultRel ε ε'} {policy policy' : Policy} (h : R.Kept policy policy') :
    R.KeptWhere policy policy' fun _ _ => True where
  valid := h.valid
  map := h.map
  operation _ _ _ _ _ := h.both _
  comparison _ _ _ _ _ := h.both _
  logic := h.logic

/-- Joining the terms of a string keeps the relation. -/
structure KeptByTerms (R : ResultRel ε ε') : Prop where
  const : ∀ s : String, R String (.ok (.valid s)) (.ok (.valid s))
  append : ∀ {x y : Except ε (Evaluated String)} {x' y' : Except ε' (Evaluated String)},
    R String x x' → R String y y' → R String (appendTerm x y) (appendTerm x' y')

end ResultRel

variable {R : ResultRel ε ε'} {r : Readings ε} {r' : Readings ε'} {policy policy' : Policy}
  {allowed : ArithOp → NumType → Prop}

mutual

theorem StrExpr.eval_related (hR : R.KeptByTerms) :
    ∀ e : StrExpr, (∀ u ∈ e.uses, R.At r r' u) → R String (e.eval r) (e.eval r')
  | .const s, _ => by
    rw [StrExpr.eval, StrExpr.eval]
    exact hR.const s
  | .param pid, h => by
    rw [StrExpr.eval, StrExpr.eval]
    exact h (.string pid) (by simp [StrExpr.uses])
  | .concat terms, h => by
    rw [StrExpr.eval, StrExpr.eval]
    exact StrExpr.evalAll_related hR terms h

theorem StrExpr.evalAll_related (hR : R.KeptByTerms) :
    ∀ terms : List StrExpr, (∀ u ∈ StrExpr.usesAll terms, R.At r r' u) →
      R String (StrExpr.evalAll r terms) (StrExpr.evalAll r' terms)
  | [], _ => by
    rw [StrExpr.evalAll, StrExpr.evalAll]
    exact hR.const ""
  | term :: terms, h => by
    rw [StrExpr.evalAll, StrExpr.evalAll]
    rw [StrExpr.usesAll, List.forall_mem_append] at h
    exact hR.append (StrExpr.eval_related hR term h.1) (StrExpr.evalAll_related hR terms h.2)

end

mutual

/-- The strings in a tree come in by `hs`, since not every relation is kept by joining terms. -/
theorem ArithExpr.eval_relatedWhere (hR : R.KeptWhere policy policy' allowed)
    (hs : ∀ e : StrExpr, (∀ u ∈ e.uses, R.At r r' u) → R String (e.eval r) (e.eval r')) :
    ∀ e : ArithExpr, (∀ o ∈ e.operations, allowed o.1 o.2) → (∀ u ∈ e.uses, R.At r r' u) →
      R Num (e.eval policy r) (e.eval policy' r')
  | .int value text, _, _ => by
    rw [ArithExpr.eval, ArithExpr.eval]
    exact hR.valid _
  | .double value text, _, _ => by
    rw [ArithExpr.eval, ArithExpr.eval]
    exact hR.valid _
  | .param pid type, _, h => by
    rw [ArithExpr.eval, ArithExpr.eval]
    exact hR.map _ (h (.number pid type) (by simp [ArithExpr.uses]))
  | .binary op type lhs rhs, ho, h => by
    rw [ArithExpr.eval, ArithExpr.eval]
    rw [ArithExpr.operations, List.forall_mem_cons, List.forall_mem_append] at ho
    rw [ArithExpr.uses, List.forall_mem_append] at h
    exact hR.operation ho.1 (ArithExpr.eval_relatedWhere hR hs lhs ho.2.1 h.1)
      (ArithExpr.eval_relatedWhere hR hs rhs ho.2.2 h.2)
  | .neg operand, ho, h => by
    rw [ArithExpr.eval, ArithExpr.eval]
    exact hR.map _ (ArithExpr.eval_relatedWhere hR hs operand ho h)
  | .cast type operand, ho, h => by
    rw [ArithExpr.eval, ArithExpr.eval]
    exact hR.map _ (ArithExpr.eval_relatedWhere hR hs operand ho h)
  | .truth type operand, ho, h => by
    rw [ArithExpr.eval, ArithExpr.eval]
    exact hR.map _ (Constraint.eval_relatedWhere hR hs operand ho h)

theorem Constraint.eval_relatedWhere (hR : R.KeptWhere policy policy' allowed)
    (hs : ∀ e : StrExpr, (∀ u ∈ e.uses, R.At r r' u) → R String (e.eval r) (e.eval r')) :
    ∀ c : Constraint, (∀ o ∈ c.operations, allowed o.1 o.2) → (∀ u ∈ c.uses, R.At r r' u) →
      R Bool (c.eval policy r) (c.eval policy' r')
  | .bool value, _, _ => by
    rw [Constraint.eval, Constraint.eval]
    exact hR.valid _
  | .param pid, _, h => by
    rw [Constraint.eval, Constraint.eval]
    exact h (.truth pid) (by simp [Constraint.uses])
  | .invalid pid, _, h => by
    rw [Constraint.eval, Constraint.eval]
    exact h (.validity pid) (by simp [Constraint.uses])
  | .not operand, ho, h => by
    rw [Constraint.eval, Constraint.eval]
    exact hR.map _ (Constraint.eval_relatedWhere hR hs operand ho h)
  | .logic op lhs rhs, ho, h => by
    rw [Constraint.eval, Constraint.eval]
    rw [Constraint.operations, List.forall_mem_append] at ho
    rw [Constraint.uses, List.forall_mem_append] at h
    exact hR.logic op (Constraint.eval_relatedWhere hR hs lhs ho.1 h.1)
      (Constraint.eval_relatedWhere hR hs rhs ho.2 h.2)
  | .arith op lhs rhs precision, ho, h => by
    rw [Constraint.eval, Constraint.eval]
    rw [Constraint.operations, List.forall_mem_append] at ho
    rw [Constraint.uses, List.forall_mem_append] at h
    exact hR.comparison _ (ArithExpr.eval_relatedWhere hR hs lhs ho.1 h.1)
      (ArithExpr.eval_relatedWhere hR hs rhs ho.2 h.2)
  | .string op lhs rhs, _, h => by
    rw [Constraint.eval, Constraint.eval]
    rw [Constraint.uses, List.forall_mem_append] at h
    exact hR.comparison _ (hs lhs h.1) (hs rhs h.2)

end

theorem ArithExpr.eval_related (hR : R.Kept policy policy')
    (hs : ∀ e : StrExpr, (∀ u ∈ e.uses, R.At r r' u) → R String (e.eval r) (e.eval r'))
    (e : ArithExpr) (h : ∀ u ∈ e.uses, R.At r r' u) :
    R Num (e.eval policy r) (e.eval policy' r') :=
  ArithExpr.eval_relatedWhere hR.everywhere hs e (fun _ _ => trivial) h

theorem Constraint.eval_related (hR : R.Kept policy policy')
    (hs : ∀ e : StrExpr, (∀ u ∈ e.uses, R.At r r' u) → R String (e.eval r) (e.eval r'))
    (c : Constraint) (h : ∀ u ∈ c.uses, R.At r r' u) :
    R Bool (c.eval policy r) (c.eval policy' r') :=
  Constraint.eval_relatedWhere hR.everywhere hs c (fun _ _ => trivial) h

end TWay
