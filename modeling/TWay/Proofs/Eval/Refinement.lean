import TWay.Proofs.Eval.Extension
import TWay.Proofs.Eval.Locality

/-!
# From absorbing to deciding

The deciding policy says no less than the absorbing one. On the same readings both evaluate every
tree with the same failures, and what counts under the absorbing policy is what the deciding policy
comes to (`Node.eval_refined`): the two differ only at a connective with an invalid operand, where
the absorbing result does not count. Over parameters with a list of values the readings are the same
under both policies, so that this carries over to trees in a model, and to the verdicts on
constraints (`deciding_refines_absorbing`). The rules of a computed parameter are another matter: a
condition that counts only under the deciding policy can make another rule fire.
-/

namespace TWay

variable {ε : Type}

/-! ## On the same readings -/

/-- Both sides fail in the same way or neither does, and what counts on the left is the result on
the right. -/
inductive Refined {α : Type} : Except ε (Evaluated α) → Except ε (Evaluated α) → Prop
  | error (e : ε) : Refined (.error e) (.error e)
  | ok {v w : Evaluated α} (h : v.isValid = true → w = v) : Refined (.ok v) (.ok w)

theorem Refined.refl {α : Type} (x : Except ε (Evaluated α)) : Refined x x := by
  cases x with
  | error e => exact .error e
  | ok v => exact .ok fun _ => rfl

namespace ResultRel

def refined : ResultRel ε ε := fun _ => Refined

theorem refined_kept : (refined : ResultRel ε ε).Kept .absorbing .deciding where
  valid _ := .ok fun _ => rfl
  map f x x' h := by
    cases h with
    | error e => exact .error e
    | ok h => exact .ok fun hvalid => congrArg (Evaluated.map f) (h hvalid)
  both f x x' y y' hx hy := by
    cases hx with
    | error e => exact .error e
    | ok hx =>
      cases hy with
      | error e => exact .error e
      | ok hy =>
        refine .ok fun hvalid => ?_
        obtain ⟨ha, hb⟩ := Evaluated.isValid_both hvalid
        rw [hx ha, hy hb]
  logic op x y x' y' hx hy := by
    cases hx with
    | error e => exact .error e
    | ok hx =>
      cases hy with
      | error e => exact .error e
      | ok hy => exact .ok fun hvalid => Policy.deciding_of_absorbing hx hy hvalid

theorem refined_at_self (r : Readings ε) (u : Use) : refined.At r r u := by
  cases u <;> exact Refined.refl _

end ResultRel

section

variable (r : Readings ε)

theorem ArithExpr.eval_refined (e : ArithExpr) :
    Refined (e.eval .absorbing r) (e.eval .deciding r) :=
  e.eval_related ResultRel.refined_kept (fun _ _ => .refl _) fun u _ =>
    ResultRel.refined_at_self r u

theorem Constraint.eval_refined (c : Constraint) :
    Refined (c.eval .absorbing r) (c.eval .deciding r) :=
  c.eval_related ResultRel.refined_kept (fun _ _ => .refl _) fun u _ =>
    ResultRel.refined_at_self r u

/-- What the two sides come to as results of a tree of some family. -/
theorem Refined.wrapped {α : Type} {x y : Except ε (Evaluated α)} (h : Refined x y)
    (wrap : Evaluated α → Evaluation) (hwrap : ∀ v, (wrap v).isValid = v.isValid) :
    (∀ e, wrap <$> x = .error e ↔ wrap <$> y = .error e) ∧
      ∀ z, wrap <$> x = .ok z → z.isValid = true → wrap <$> y = .ok z := by
  cases h with
  | error e => exact ⟨fun _ => Iff.rfl, fun z hz => by cases hz⟩
  | ok h =>
    refine ⟨fun e => ?_, fun z hz hvalid => ?_⟩
    · constructor <;> intro he <;> cases he
    · cases hz
      rw [h (hwrap _ ▸ hvalid)]
      rfl

/-- On the same readings the policies fail alike, and what counts under the absorbing one counts
under the deciding one. -/
theorem Node.eval_refined (n : Node) :
    (∀ e, n.eval .absorbing r = .error e ↔ n.eval .deciding r = .error e) ∧
      ∀ x, n.eval .absorbing r = .ok x → x.isValid = true → n.eval .deciding r = .ok x := by
  cases n with
  | arith e => exact (e.eval_refined r).wrapped .num fun _ => rfl
  | string e => exact (Refined.refl (e.eval r)).wrapped .string fun _ => rfl
  | constraint c => exact (c.eval_refined r).wrapped .bool fun _ => rfl

end

/-! ## Over parameters with a list of values -/

namespace Context

variable {params : Params} {a : Assignment}

/-- How a parameter with a list of values reads does not depend on the policy. -/
theorem reading_of_static (policy policy' : Policy) {u : Use}
    (hstatic : ∀ p, params[u.pid]? = some p → p.isAuto = false) :
    ExceptRel.same.onEvaluated.At (Context.reading ⟨params, a, policy⟩)
      (Context.reading ⟨params, a, policy'⟩) u := by
  rw [reading_eq, reading_eq]
  have hauto : ∀ p, params[u.pid]? = some p → p.isAuto ≠ true := fun p hp => by
    rw [hstatic p hp]
    exact Bool.false_ne_true
  have halike : AlikeAt ⟨params, a, policy⟩ ⟨params, a, policy'⟩ u.pid :=
    ⟨rfl, fun _ _ _ => .inl rfl, fun p hp h => absurd h (hauto p hp)⟩
  exact readings_congr ExceptRel.same_sequential ExceptRel.same_tells halike
    fun p hp h => absurd h (hauto p hp)

/-- Without computed parameters, a policy deals with connectives only. -/
theorem node_of_static (policy policy' : Policy) {n : Node} (hn : n.IsStatic params) :
    Context.node ⟨params, a, policy⟩ n =
      n.eval policy (Context.reading ⟨params, a, policy'⟩) :=
  n.eval_congr ExceptRel.same_sequential fun u hu => reading_of_static policy policy' (hn u hu)

theorem node_refined {n : Node} (hn : n.IsStatic params) :
    (∀ e, Context.node ⟨params, a, .absorbing⟩ n = .error e ↔
      Context.node ⟨params, a, .deciding⟩ n = .error e) ∧
    ∀ x, Context.node ⟨params, a, .absorbing⟩ n = .ok x → x.isValid = true →
      Context.node ⟨params, a, .deciding⟩ n = .ok x := by
  rw [node_of_static .absorbing .deciding hn]
  exact n.eval_refined _

theorem constraint_refined {c : Constraint} (hc : (Node.constraint c).IsStatic params) {b : Bool}
    (h : Context.constraint ⟨params, a, .absorbing⟩ c = .ok (.valid b)) :
    Context.constraint ⟨params, a, .deciding⟩ c = .ok (.valid b) := by
  have hnode : Context.node ⟨params, a, .absorbing⟩ (.constraint c) = .ok (.bool (.valid b)) :=
    map_eq_ok.2 ⟨_, h, rfl⟩
  obtain ⟨v, hv, hsame⟩ := map_eq_ok.1 ((node_refined hc).2 _ hnode rfl)
  cases hsame
  exact hv

end Context

/-- Deciding refines absorbing. Over parameters with a list of values, a tree fails under one policy
where it does under the other, and in the same way; what counts under the absorbing policy is what
it comes to under the deciding one; and a verdict of legal or violated stays. -/
theorem deciding_refines_absorbing (params : Params) (a : Assignment) :
    (∀ n : Node, n.IsStatic params →
      (∀ e, Context.node ⟨params, a, .absorbing⟩ n = .error e ↔
        Context.node ⟨params, a, .deciding⟩ n = .error e) ∧
      ∀ x, Context.node ⟨params, a, .absorbing⟩ n = .ok x → x.isValid = true →
        Context.node ⟨params, a, .deciding⟩ n = .ok x) ∧
    ∀ cs : List Constraint, (∀ c ∈ cs, (Node.constraint c).IsStatic params) →
      (check cs params ⟨.absorbing⟩ a = .ok .legal → check cs params ⟨.deciding⟩ a = .ok .legal) ∧
      ∀ i, check cs params ⟨.absorbing⟩ a = .ok (.violated i) →
        check cs params ⟨.deciding⟩ a = .ok (.violated i) := by
  refine ⟨fun n hn => Context.node_refined hn, fun cs hcs => ?_⟩
  have htruths : ∀ c ∈ cs, ∀ b, Context.constraint ⟨params, a, .absorbing⟩ c = .ok (.valid b) →
      Context.constraint ⟨params, a, .deciding⟩ c = .ok (.valid b) :=
    fun c hc b h => Context.constraint_refined (hcs c hc) h
  constructor
  · intro h
    exact Context.check_of_truths htruths h (by simp)
  · intro i h
    exact Context.check_of_truths htruths h (by simp)

/-- Only the first of two parameters is assigned. What needs no other one is the same under both
policies, and so is the failure over a parameter that is not there. -/
theorem deciding_refines_absorbing_partial :
    let params : Params := [.boolean "a", .boolean "b"]
    let a : Assignment := ⟨[some (.value 0)]⟩
    let n : Node := .arith (.truth .int (.logic .imply (.param 0) (.not (.param 0))))
    let cs : List Constraint :=
      [.param 0, .logic .and (.param 0) (.not (.param 0)), .logic .or (.param 0) (.param 1)]
    Context.node ⟨params, a, .deciding⟩ n = .ok (.num (.valid (.int 0))) ∧
      Context.node ⟨params, a, .deciding⟩ (.constraint (.param 2)) =
        .error (.unknownParam 2 2) ∧
      check cs params ⟨.deciding⟩ a = .ok (.violated 1) := by
  intro params a n cs
  have hstatic : ∀ n : Node, n.IsStatic params := by
    intro n u _ p hp
    have hmem : p = .boolean "a" ∨ p = .boolean "b" := by
      simpa [params] using List.mem_of_getElem? hp
    rcases hmem with rfl | rfl <;> rfl
  have hvalue : Context.node ⟨params, a, .absorbing⟩ n = .ok (.num (.valid (.int 0))) := by
    rw [Context.node, Context.reading_eq]
    rfl
  have hunknown : Context.node ⟨params, a, .absorbing⟩ (.constraint (.param 2)) =
      .error (.unknownParam 2 2) := by
    rw [Context.node, Context.reading_eq]
    rfl
  have htrue : Context.constraint ⟨params, a, .absorbing⟩ (.param 0) = .ok (.valid true) := by
    rw [Context.constraint_eq]
    rfl
  have hfalse : Context.constraint ⟨params, a, .absorbing⟩
      (.logic .and (.param 0) (.not (.param 0))) = .ok (.valid false) := by
    rw [Context.constraint_eq]
    rfl
  have hviolated : check cs params ⟨.absorbing⟩ a = .ok (.violated 1) :=
    Context.check_eq_violated_iff.2 ⟨List.forall_mem_singleton.2 htrue, _, rfl, hfalse⟩
  obtain ⟨hnodes, hchecks⟩ := deciding_refines_absorbing params a
  refine ⟨(hnodes n (hstatic n)).2 _ hvalue rfl, ?_, ?_⟩
  · exact ((hnodes _ (hstatic (.constraint (.param 2)))).1 _).1 hunknown
  · exact (hchecks cs fun c _ => hstatic (.constraint c)).2 1 hviolated

end TWay
