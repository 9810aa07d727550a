import TWay.Proofs.Eval.Reading
import TWay.Proofs.Eval.Relation
import TWay.Proofs.Expr.Dependency

/-!
# Evaluations side by side

An evaluation is a sequence of steps that can fail. So a relation between outcomes that holds of
equal results and is kept by sequences (`ExceptRel.Sequential`) is kept by evaluation as a whole: by
trees of each family (`Node.eval_congr`), and by the reading of a parameter through its rules
(`Context.readings_congr`). All that has to be said of such a relation is how it takes the failures
that a reading can come to, and what happens where the rules of a computed parameter are entered.
The two sides may be read in different contexts, as long as nothing about the parameter itself tells
them apart (`Context.AlikeAt`).
-/

namespace TWay

variable {ε ε' : Type}

/-- A relation between the outcomes of two computations, for results of every type. -/
abbrev ExceptRel (ε ε' : Type) := (α : Type) → Except ε α → Except ε' α → Prop

namespace ExceptRel

variable {R : ExceptRel ε ε'} {policy : Policy} {r : Readings ε} {r' : Readings ε'}

/-- Equal results are related, and so are sequences that begin with related outcomes and go on in
related ways. -/
structure Sequential (R : ExceptRel ε ε') : Prop where
  ok : ∀ {α : Type} (a : α), R α (.ok a) (.ok a)
  bind : ∀ {α β : Type} {x : Except ε α} {x' : Except ε' α} {f : α → Except ε β}
    {f' : α → Except ε' β}, R α x x' → (∀ a, x = .ok a → R β (f a) (f' a)) →
    R β (x >>= f) (x' >>= f')

/-- The relation on what evaluations give. -/
def onEvaluated (R : ExceptRel ε ε') : ResultRel ε ε' := fun α => R (Evaluated α)

namespace Sequential

variable (hR : R.Sequential)
include hR

theorem map {α β : Type} {x : Except ε α} {x' : Except ε' α} (f : α → β) (h : R α x x') :
    R β (f <$> x) (f <$> x') := by
  have hmap := hR.bind h fun a _ => hR.ok (f a)
  cases x <;> cases x' <;> exact hmap

theorem kept (policy : Policy) : R.onEvaluated.Kept policy policy where
  valid _ := hR.ok _
  map _ _ _ h := hR.bind h fun _ _ => hR.ok _
  both _ _ _ _ _ hx hy := hR.bind hx fun _ _ => hR.bind hy fun _ _ => hR.ok _
  logic _ _ _ _ _ hx hy := hR.bind hx fun _ _ => hR.bind hy fun _ _ => hR.ok _

theorem keptByTerms : R.onEvaluated.KeptByTerms where
  const _ := hR.ok _
  append {x y x' y'} hx hy := by
    refine hR.bind hx fun a _ => ?_
    split
    · exact hR.bind hy fun b _ => hR.ok _
    · exact hR.ok _

end Sequential

end ExceptRel

/-! ## Trees and rules -/

section

variable {R : ExceptRel ε ε'} {policy : Policy} {r : Readings ε} {r' : Readings ε'}
  (hR : R.Sequential)
include hR

theorem StrExpr.eval_congr (e : StrExpr) (h : ∀ u ∈ e.uses, R.onEvaluated.At r r' u) :
    R (Evaluated String) (e.eval r) (e.eval r') :=
  e.eval_related hR.keptByTerms h

theorem ArithExpr.eval_congr (e : ArithExpr) (h : ∀ u ∈ e.uses, R.onEvaluated.At r r' u) :
    R (Evaluated Num) (e.eval policy r) (e.eval policy r') :=
  e.eval_related (hR.kept policy) (fun e he => e.eval_congr hR he) h

theorem Constraint.eval_congr (c : Constraint) (h : ∀ u ∈ c.uses, R.onEvaluated.At r r' u) :
    R (Evaluated Bool) (c.eval policy r) (c.eval policy r') :=
  c.eval_related (hR.kept policy) (fun e he => e.eval_congr hR he) h

theorem Node.eval_congr (n : Node) (h : ∀ u ∈ n.uses, R.onEvaluated.At r r' u) :
    R Evaluation (n.eval policy r) (n.eval policy r') := by
  cases n with
  | arith e => exact hR.map Evaluation.num (e.eval_congr hR h)
  | string e => exact hR.map Evaluation.string (e.eval_congr hR h)
  | constraint c => exact hR.map Evaluation.bool (c.eval_congr hR h)

theorem firstFiring_congr {rules : List AutoRule}
    (h : ∀ rule ∈ rules, ∀ u ∈ rule.condition.uses, R.onEvaluated.At r r' u) :
    R (Option Node) (firstFiring policy r rules) (firstFiring policy r' rules) := by
  induction rules with
  | nil => exact hR.ok none
  | cons rule rules ih =>
    rw [List.forall_mem_cons] at h
    rw [firstFiring, firstFiring]
    refine hR.bind (rule.condition.eval_congr hR h.1) fun v _ => ?_
    split
    · exact hR.ok _
    · exact ih h.2

end

/-- Where the kind takes nothing from a tree, both sides have something else to offer. -/
def Kind.Congruent {α : Type} (kind : Kind α) : Prop :=
  ∀ {ε ε' : Type} {R : ExceptRel ε ε'} (policy : Policy) {r : Readings ε} {r' : Readings ε'}
    {n : Node} {x : Except ε (Evaluated α)} {x' : Except ε' (Evaluated α)}, R.Sequential →
    (∀ u ∈ n.uses, R.onEvaluated.At r r' u) → R (Evaluated α) x x' →
    R (Evaluated α) ((kind.eval? policy r n).getD x) ((kind.eval? policy r' n).getD x')

theorem Kind.number_congruent : Kind.number.Congruent := by
  intro ε ε' R policy r r' n x x' hR hn hx
  cases n with
  | arith e => exact e.eval_congr hR hn
  | string e => exact hx
  | constraint c => exact hx

theorem Kind.string_congruent : Kind.string.Congruent := by
  intro ε ε' R policy r r' n x x' hR hn hx
  cases n with
  | arith e => exact hx
  | string e => exact e.eval_congr hR hn
  | constraint c => exact hx

theorem Kind.boolean_congruent : Kind.boolean.Congruent := by
  intro ε ε' R policy r r' n x x' hR hn hx
  cases n with
  | arith e => exact hx
  | string e => exact hx
  | constraint c => exact c.eval_congr hR hn

/-! ## Parameters -/

/-- The relation takes the failures that the reading of a parameter can come to by itself. -/
structure ExceptRel.Tells (R : ExceptRel ε ε') (fail : EvalError → ε) (fail' : EvalError → ε') :
    Prop where
  unknown : ∀ (α : Type) (pid : ParamId) (count : Nat),
    R α (.error (fail (.unknownParam pid count))) (.error (fail' (.unknownParam pid count)))
  mismatch : ∀ (α : Type) (name : String) (expected : ValueKind) (actual : ParamType),
    R α (.error (fail (.typeMismatch name expected actual)))
      (.error (fail' (.typeMismatch name expected actual)))

/-- The rules of a parameter are entered on both sides, where what they ask is read in related ways,
or on neither, with related failures. -/
inductive ExceptRel.Enters (R : ExceptRel ε ε') (uses : List Use) :
    Except ε (Readings ε) → Except ε' (Readings ε') → Prop
  | ok {inner : Readings ε} {inner' : Readings ε'} :
    (∀ u ∈ uses, R.onEvaluated.At inner inner' u) → Enters R uses (.ok inner) (.ok inner')
  | error {e : ε} {e' : ε'} : (∀ α, R α (.error e) (.error e')) →
    Enters R uses (.error e) (.error e')

namespace Context

variable {ctx ctx' : Context} {pid : ParamId}

/-- Two contexts between which a parameter makes no difference by itself. One with a list of values
is assigned alike, and the rules of a computed one are followed under the same policy. -/
structure AlikeAt (ctx ctx' : Context) (pid : ParamId) : Prop where
  params : ctx'.params = ctx.params
  slot : ∀ p, ctx.params[pid]? = some p → p.isAuto = false →
    ctx.assignment.AlikeAt ctx'.assignment p.values.length pid
  policy : ∀ p, ctx.params[pid]? = some p → p.isAuto = true → ctx'.policy = ctx.policy

theorem AlikeAt.refl (ctx : Context) (pid : ParamId) : ctx.AlikeAt ctx pid where
  params := rfl
  slot _ _ _ := .inl rfl
  policy _ _ _ := rfl

theorem chosen?_alike {values : List DomainValue}
    (h : ctx.assignment.AlikeAt ctx'.assignment values.length pid) :
    ctx'.chosen? pid values = ctx.chosen? pid values := by
  rcases h with hget | ⟨slot, slot', hget, hget', hslot, hslot'⟩
  · simp [chosen?, Assignment.valueId?, hget]
  · rw [chosen?_of_leavesInvalid hget hslot, chosen?_of_leavesInvalid hget' hslot']

section

variable {R : ExceptRel ε ε'} {fail : EvalError → ε} {fail' : EvalError → ε'}
  {enter : ParamId → Except ε (Readings ε)} {enter' : ParamId → Except ε' (Readings ε')}

variable (hR : R.Sequential) (htells : R.Tells fail fail') (halike : ctx.AlikeAt ctx' pid)
  (henter : ∀ p, ctx.params[pid]? = some p → p.isAuto = true →
    R.Enters p.uses (enter pid) (enter' pid))
include hR htells halike henter

theorem read_congr {α : Type} [Inhabited α] {kind : Kind α} (hk : kind.Congruent) :
    R (Evaluated α) (ctx.read kind fail enter pid) (ctx'.read kind fail' enter' pid) := by
  have hparams := halike.params
  cases hp : ctx.params[pid]? with
  | none =>
    rw [read_none hp, read_none (hparams ▸ hp), hparams]
    exact htells.unknown _ _ _
  | some p =>
    have hp' : ctx'.params[pid]? = some p := hparams ▸ hp
    cases hauto : p.isAuto with
    | false =>
      have hd := Param.domain_of_static hauto
      rw [read_values hp hd, read_values hp' hd, chosen?_alike (halike.slot p hp hauto)]
      cases ctx.chosen? pid p.values with
      | none => exact hR.ok _
      | some value =>
        dsimp only
        cases kind.ofValue? value with
        | some x => exact hR.ok _
        | none => exact htells.mismatch _ _ _ _
    | true =>
      have hd := Param.domain_of_auto hauto
      have hentered := henter p hp hauto
      rw [read_auto hp hd, read_auto hp' hd, halike.policy p hp hauto]
      generalize enter pid = x, enter' pid = x' at hentered
      cases hentered with
      | error he => exact he _
      | ok h =>
        rw [ok_bind, ok_bind]
        refine hR.bind (firstFiring_congr hR fun rule hrule u hu =>
          h u (Param.uses_of_condition hrule hu)) fun o ho => ?_
        cases o with
        | none => exact hR.ok _
        | some node =>
          obtain ⟨rule, hrule, rfl⟩ := firstFiring_eq_some ho
          exact hk ctx.policy hR (fun u hu => h u (Param.uses_of_value hrule hu))
            (htells.mismatch _ _ _ _)

theorem readAs_congr (type : ParamType) :
    R Evaluation (ctx.readAs type fail enter pid) (ctx'.readAs type fail' enter' pid) := by
  have hnum := read_congr hR htells halike henter Kind.number_congruent
  cases type with
  | int => exact hR.map Evaluation.num hnum
  | double => exact hR.map Evaluation.num hnum
  | string =>
    exact hR.map Evaluation.string (read_congr hR htells halike henter Kind.string_congruent)
  | bool =>
    exact hR.map Evaluation.bool (read_congr hR htells halike henter Kind.boolean_congruent)

theorem readInvalid_congr :
    R (Evaluated Bool) (ctx.readInvalid fail enter pid) (ctx'.readInvalid fail' enter' pid) := by
  have hparams := halike.params
  cases hp : ctx.params[pid]? with
  | none =>
    rw [readInvalid_none hp, readInvalid_none (hparams ▸ hp), hparams]
    exact htells.unknown _ _ _
  | some p =>
    have hp' : ctx'.params[pid]? = some p := hparams ▸ hp
    cases hauto : p.isAuto with
    | false =>
      have hd := Param.domain_of_static hauto
      rcases halike.slot p hp hauto with hget | ⟨slot, slot', hget, hget', hslot, hslot'⟩
      · rw [readInvalid_values hp hd, readInvalid_values hp' hd, hget]
        split <;> exact hR.ok _
      · rw [readInvalid_of_leavesInvalid hp hd hget hslot,
          readInvalid_of_leavesInvalid hp' hd hget' hslot']
        exact hR.ok _
    | true =>
      have hd := Param.domain_of_auto hauto
      rw [readInvalid_auto hp hd, readInvalid_auto hp' hd]
      exact hR.bind (readAs_congr hR htells halike henter p.type) fun x _ => hR.ok _

end

end Context

/-- A parameter reads in related ways, whatever it is read as, where its rules are entered so. -/
theorem Context.readings_congr {R : ExceptRel ε ε'} {ctx ctx' : Context} {fail : EvalError → ε}
    {fail' : EvalError → ε'} {enter : ParamId → Except ε (Readings ε)}
    {enter' : ParamId → Except ε' (Readings ε')} (hR : R.Sequential) (htells : R.Tells fail fail')
    {u : Use} (halike : ctx.AlikeAt ctx' u.pid)
    (henter : ∀ p, ctx.params[u.pid]? = some p → p.isAuto = true →
      R.Enters p.uses (enter u.pid) (enter' u.pid)) :
    R.onEvaluated.At (ctx.readings fail enter) (ctx'.readings fail' enter') u := by
  cases u with
  | number pid type => exact read_congr hR htells halike henter Kind.number_congruent
  | string pid => exact read_congr hR htells halike henter Kind.string_congruent
  | truth pid => exact read_congr hR htells halike henter Kind.boolean_congruent
  | validity pid => exact readInvalid_congr hR htells halike henter

end TWay
