import Mathlib.Data.List.Perm.Basic
import TWay.Proofs.Build.Invalidation
import TWay.Proofs.Check
import TWay.Proofs.Eval.Policy

/-!
# What the constraint for a parameter says

A chain of disjunctions is the disjunction of the values of its members (`Context.chain_eq_ok`). So
the constraint for a parameter is true when it is known whether one of the conditions holds, and the
parameter is invalid just if one does (`Context.invalidWhen_eq_true`), and the order of the
conditions does not matter (`Context.invalidWhen_perm`).
-/

namespace TWay

namespace Context

variable {ctx : Context} {pid : ParamId} {c : Constraint} {cs cs' : List Constraint}
  {v : Evaluated Bool}

theorem constraint_not_eq_ok :
    ctx.constraint (.not c) = .ok v ↔ ∃ a, ctx.constraint c = .ok a ∧ a.map Bool.not = v := by
  rw [constraint, Constraint.eval, bind_eq_ok]
  exact exists_congr fun a => and_congr_right fun _ => pure_eq_ok

theorem constraint_logic_eq_ok {op : LogicOp} {lhs rhs : Constraint} :
    ctx.constraint (.logic op lhs rhs) = .ok v ↔
      ∃ a b, ctx.constraint lhs = .ok a ∧ ctx.constraint rhs = .ok b ∧
        ctx.policy.logic op a b = v := by
  simp only [constraint, Constraint.eval, bind_eq_ok, pure_eq_ok, exists_and_left]

/-! ## Chains -/

/-- All of the constraints can be evaluated, to these values. -/
def EvaluatesTo (ctx : Context) (cs : List Constraint) (vs : List (Evaluated Bool)) : Prop :=
  cs.map ctx.constraint = vs.map .ok

theorem evaluatesTo_nil {vs : List (Evaluated Bool)} : ctx.EvaluatesTo [] vs ↔ vs = [] := by
  rw [EvaluatesTo, List.map_nil, eq_comm, List.map_eq_nil_iff]

theorem evaluatesTo_cons {vs : List (Evaluated Bool)} :
    ctx.EvaluatesTo (c :: cs) vs ↔
      ∃ w ws, vs = w :: ws ∧ ctx.constraint c = .ok w ∧ ctx.EvaluatesTo cs ws := by
  unfold EvaluatesTo
  constructor
  · intro h
    obtain ⟨w, ws, rfl, hw, hws⟩ := List.map_eq_cons_iff.1 h.symm
    exact ⟨w, ws, rfl, hw.symm, hws.symm⟩
  · rintro ⟨w, ws, rfl, hw, hws⟩
    rw [List.map_cons, hw, hws, List.map_cons]

theorem exists_evaluatesTo :
    (∃ vs, ctx.EvaluatesTo cs vs) ↔ ∀ c ∈ cs, ∃ v, ctx.constraint c = .ok v := by
  simp only [EvaluatesTo, exists_eq_map_iff, List.forall_mem_map]

theorem EvaluatesTo.unique {vs vs' : List (Evaluated Bool)} (h : ctx.EvaluatesTo cs vs)
    (h' : ctx.EvaluatesTo cs vs') : vs = vs' :=
  List.map_injective_iff.2 (fun _ _ => Except.ok.inj) (h.symm.trans h')

theorem EvaluatesTo.mem_iff {vs : List (Evaluated Bool)} (h : ctx.EvaluatesTo cs vs) :
    v ∈ vs ↔ ∃ c ∈ cs, ctx.constraint c = .ok v := by
  have hok : Function.Injective (Except.ok : Evaluated Bool → Except EvalError (Evaluated Bool)) :=
    fun _ _ => Except.ok.inj
  rw [← List.mem_map_of_injective hok, ← h, List.mem_map]

theorem EvaluatesTo.forall_iff {vs : List (Evaluated Bool)} (h : ctx.EvaluatesTo cs vs)
    {P : Evaluated Bool → Prop} :
    (∀ v ∈ vs, P v) ↔ ∀ c ∈ cs, ∃ v, ctx.constraint c = .ok v ∧ P v := by
  rw [← List.forall_mem_map (f := ctx.constraint) (P := fun x => ∃ v, x = .ok v ∧ P v), h,
    List.forall_mem_map]
  simp only [Except.ok.injEq, exists_eq_left']

/-- In another order there are the same values in another order. -/
theorem EvaluatesTo.perm {vs : List (Evaluated Bool)} (h : ctx.EvaluatesTo cs vs)
    (hperm : cs.Perm cs') : ∃ vs', ctx.EvaluatesTo cs' vs' ∧ vs.Perm vs' := by
  obtain ⟨vs', hvs'⟩ : ∃ vs', ctx.EvaluatesTo cs' vs' :=
    exists_evaluatesTo.2 fun c hc => exists_evaluatesTo.1 ⟨vs, h⟩ c (hperm.mem_iff.2 hc)
  refine ⟨vs', hvs', ?_⟩
  have hmap : (vs.map Except.ok : List (Except EvalError _)).Perm (vs'.map .ok) := by
    rw [← h, ← hvs']
    exact hperm.map ctx.constraint
  exact (List.map_perm_map_iff fun _ _ => Except.ok.inj).1 hmap

/-- The head of a chain of disjunctions takes the next member in, which makes it a shorter one. -/
theorem chain_eq_ok :
    ctx.constraint (cs.foldl (.logic .or) c) = .ok v ↔
      ∃ vs, ctx.EvaluatesTo (c :: cs) vs ∧ ctx.policy.any vs = v := by
  induction cs generalizing c with
  | nil => simp [evaluatesTo_cons, evaluatesTo_nil, Policy.any_cons]
  | cons c' cs ih =>
    rw [List.foldl_cons, ih]
    simp only [evaluatesTo_cons, constraint_logic_eq_ok]
    constructor
    · rintro ⟨_, ⟨_, ws, rfl, ⟨a, b, ha, hb, rfl⟩, hws⟩, rfl⟩
      refine ⟨a :: b :: ws, ⟨a, b :: ws, rfl, ha, b, ws, rfl, hb, hws⟩, ?_⟩
      rw [Policy.any_cons, Policy.any_cons]
      rfl
    · rintro ⟨_, ⟨a, _, rfl, ha, b, ws, rfl, hb, hws⟩, rfl⟩
      refine ⟨_, ⟨_, ws, rfl, ⟨a, b, ha, hb, rfl⟩, hws⟩, ?_⟩
      rw [Policy.any_cons, Policy.any_cons]
      rfl

/-! ## The constraint for a parameter -/

/-- It is true when it is known whether one of the conditions holds, and the parameter is invalid
just if one does. -/
theorem invalidWhen_eq_true :
    ctx.constraint (Draft.invalidWhen pid cs) = .ok (.valid true) ↔
      ∃ vs t, ctx.EvaluatesTo cs vs ∧ ctx.policy.any vs = .valid t ∧
        ctx.constraint (.invalid pid) = .ok (.valid t) := by
  cases cs with
  | nil =>
    rw [Draft.invalidWhen, constraint_not_eq_ok]
    constructor
    · rintro ⟨⟨value, isValid⟩, ha, hnot⟩
      cases value <;> cases isValid <;> cases hnot
      exact ⟨[], false, rfl, rfl, ha⟩
    · rintro ⟨vs, t, hvs, hany, hmarker⟩
      rw [evaluatesTo_nil.1 hvs] at hany
      cases hany
      exact ⟨_, hmarker, rfl⟩
  | cons c cs =>
    rw [Draft.invalidWhen, constraint_logic_eq_ok]
    simp only [chain_eq_ok]
    constructor
    · rintro ⟨a, b, ⟨vs, hvs, hany⟩, hmarker, hiff⟩
      obtain ⟨t, rfl, rfl⟩ := Policy.iff_eq_true hiff
      exact ⟨vs, t, hvs, hany, hmarker⟩
    · rintro ⟨vs, t, hvs, hany, hmarker⟩
      exact ⟨_, _, ⟨vs, hvs, hany⟩, hmarker, by cases t <;> rfl⟩

/-- The parameter is known to be invalid or not then, and it is because of one of the conditions. -/
theorem invalidWhen_true (h : ctx.constraint (Draft.invalidWhen pid cs) = .ok (.valid true)) :
    ∃ t, ctx.constraint (.invalid pid) = .ok (.valid t) ∧
      (t = true ↔ ∃ c ∈ cs, ctx.constraint c = .ok (.valid true)) := by
  obtain ⟨vs, t, hvs, hany, hmarker⟩ := invalidWhen_eq_true.1 h
  refine ⟨t, hmarker, ?_⟩
  rw [← hvs.mem_iff]
  cases t with
  | true => exact ⟨fun _ => (Policy.any_eq_true.1 hany).1, fun _ => rfl⟩
  | false =>
    refine ⟨fun ht => (by cases ht), fun hmem => ?_⟩
    cases Policy.any_eq_false.1 hany _ hmem

/-- What is known of the conditions goes with what is known of the parameter: one of them holds and
it is invalid, or none of them does and it is not. -/
def Agrees (ctx : Context) (pid : ParamId) (cs : List Constraint) : Prop :=
  (∃ c ∈ cs, ctx.constraint c = .ok (.valid true)) ∧
      ctx.constraint (.invalid pid) = .ok (.valid true) ∨
    (∀ c ∈ cs, ctx.constraint c = .ok (.valid false)) ∧
      ctx.constraint (.invalid pid) = .ok (.valid false)

/-- Where the conditions can be evaluated, that is all it says, except that under the absorbing
policy each of them has to be valid as well. -/
theorem invalidWhen_true_iff (hok : ∀ c ∈ cs, ∃ v, ctx.constraint c = .ok v) :
    ctx.constraint (Draft.invalidWhen pid cs) = .ok (.valid true) ↔
      ctx.Agrees pid cs ∧
        (ctx.policy = .absorbing → ∀ c ∈ cs, ∃ v, ctx.constraint c = .ok v ∧ v.isValid = true) := by
  obtain ⟨vs, hvs⟩ := exists_evaluatesTo.2 hok
  rw [invalidWhen_eq_true, ← hvs.forall_iff (P := fun v => v.isValid = true)]
  constructor
  · rintro ⟨vs', t, hvs', hany, hmarker⟩
    rw [hvs.unique hvs']
    cases t with
    | true =>
      obtain ⟨hmem, hvalid⟩ := Policy.any_eq_true.1 hany
      exact ⟨.inl ⟨hvs'.mem_iff.1 hmem, hmarker⟩, hvalid⟩
    | false =>
      have hfalse := Policy.any_eq_false.1 hany
      refine ⟨.inr ⟨fun c hc => ?_, hmarker⟩, fun _ v hv => ?_⟩
      · obtain ⟨v, hv, rfl⟩ := hvs'.forall_iff.1 hfalse c hc
        exact hv
      · rw [hfalse v hv]
        rfl
  · rintro ⟨⟨hone, hmarker⟩ | ⟨hnone, hmarker⟩, hvalid⟩
    · exact ⟨vs, true, hvs, Policy.any_eq_true.2 ⟨hvs.mem_iff.2 hone, hvalid⟩, hmarker⟩
    · refine ⟨vs, false, hvs, Policy.any_eq_false.2 ?_, hmarker⟩
      exact hvs.forall_iff.2 fun c hc => ⟨_, hnone c hc, rfl⟩

theorem exists_invalidWhen_eq_ok :
    (∃ v, ctx.constraint (Draft.invalidWhen pid cs) = .ok v) ↔
      (∀ c ∈ cs, ∃ v, ctx.constraint c = .ok v) ∧ ∃ v, ctx.constraint (.invalid pid) = .ok v := by
  rw [← exists_evaluatesTo]
  cases cs with
  | nil =>
    simp only [Draft.invalidWhen, constraint_not_eq_ok, evaluatesTo_nil, exists_eq, true_and]
    exact ⟨fun ⟨_, a, ha, _⟩ => ⟨a, ha⟩, fun ⟨a, ha⟩ => ⟨_, a, ha, rfl⟩⟩
  | cons c cs =>
    simp only [Draft.invalidWhen, constraint_logic_eq_ok, chain_eq_ok]
    constructor
    · rintro ⟨_, _, b, ⟨vs, hvs, -⟩, hmarker, -⟩
      exact ⟨⟨vs, hvs⟩, b, hmarker⟩
    · rintro ⟨⟨vs, hvs⟩, b, hmarker⟩
      exact ⟨_, _, b, ⟨vs, hvs, rfl⟩, hmarker, rfl⟩

/-- In another order of the conditions it evaluates to the same. -/
theorem invalidWhen_perm (hperm : cs.Perm cs')
    (h : ctx.constraint (Draft.invalidWhen pid cs) = .ok v) :
    ctx.constraint (Draft.invalidWhen pid cs') = .ok v := by
  cases cs with
  | nil => rwa [hperm.nil_eq] at h
  | cons c cs =>
    cases cs' with
    | nil => cases hperm.eq_nil
    | cons c' cs' =>
      obtain ⟨a, b, hchain, hmarker, hiff⟩ := constraint_logic_eq_ok.1 h
      obtain ⟨vs, hvs, rfl⟩ := chain_eq_ok.1 hchain
      obtain ⟨vs', hvs', hvalues⟩ := hvs.perm hperm
      rw [Policy.any_perm hvalues] at hiff
      exact constraint_logic_eq_ok.2 ⟨_, b, chain_eq_ok.2 ⟨vs', hvs', rfl⟩, hmarker, hiff⟩

end Context

/-- What a constraint has to say to mean that a parameter is invalid just if one of some conditions
holds. It can be evaluated where they and the marker can. It is true where what is known of the
conditions goes with what is known of the parameter, and under the absorbing policy if besides all
conditions are valid; without conditions, where the parameter is known not to be invalid. -/
structure Constraint.InvalidJustIf (entry : Constraint) (pid : ParamId)
    (conditions : List Constraint) : Prop where
  evaluates : ∀ ctx : Context, (∀ c ∈ conditions, ∃ v, ctx.constraint c = .ok v) →
    (∃ v, ctx.constraint (.invalid pid) = .ok v) → ∃ v, ctx.constraint entry = .ok v
  true_iff : ∀ ctx : Context, (∀ c ∈ conditions, ∃ v, ctx.constraint c = .ok v) →
    (ctx.constraint entry = .ok (.valid true) ↔
      ctx.Agrees pid conditions ∧ (ctx.policy = .absorbing →
        ∀ c ∈ conditions, ∃ v, ctx.constraint c = .ok v ∧ v.isValid = true))
  true_of_none : conditions = [] → ∀ ctx : Context,
    (ctx.constraint entry = .ok (.valid true) ↔ ctx.constraint (.invalid pid) = .ok (.valid false))

theorem Draft.invalidWhen_justIf (pid : ParamId) (conditions : List Constraint) :
    (invalidWhen pid conditions).InvalidJustIf pid conditions where
  evaluates ctx hok hmarker := Context.exists_invalidWhen_eq_ok.2 ⟨hok, hmarker⟩
  true_iff ctx hok := Context.invalidWhen_true_iff hok
  true_of_none := by
    rintro rfl ctx
    rw [Context.invalidWhen_true_iff (by simp)]
    simp [Context.Agrees]

end TWay
