import TWay.Proofs.Build.Change
import TWay.Proofs.Build.Evaluation
import TWay.Proofs.Check

/-!
# Complete assignments leave nothing open

A result is invalid where a parameter has no value, where no rule of a computed one applies, and
where an integer is divided by zero. When every computed parameter has a rule for the remaining
cases and no integer is divided, an assignment of all other parameters decides every tree and every
check, in the same way under both policies (`complete_never_undetermined`).
-/

namespace TWay

/-- Each parameter that is not computed is assigned one of its values. -/
def Assignment.IsComplete (params : Params) (a : Assignment) : Prop :=
  ∀ pid p, params[pid]? = some p → p.isAuto = false →
    ∃ vid, a.get? pid = some (.value vid) ∧ vid < p.values.length

/-- The tree has a valid result, and the same one under both policies. -/
def Node.Determined (params : Params) (a : Assignment) (n : Node) : Prop :=
  ∃ x : Evaluation, x.isValid = true ∧ ∀ policy, Context.node ⟨params, a, policy⟩ n = .ok x

/-! ## Division of integers -/

namespace Node.DividesNoInt

theorem of_isLiteral {n : Node} (h : n.isLiteral = true) : n.DividesNoInt := by
  intro o ho
  rw [Node.operations_of_isLiteral h] at ho
  cases ho

theorem logic {op : LogicOp} {lhs rhs : Constraint} (hl : (Node.constraint lhs).DividesNoInt)
    (hr : (Node.constraint rhs).DividesNoInt) :
    (Node.constraint (.logic op lhs rhs)).DividesNoInt :=
  List.forall_mem_append.2 ⟨hl, hr⟩

end Node.DividesNoInt

namespace Draft

variable {d : Draft}

theorem mem_nodes_of_param {p : Param} {n : Node} (hp : p ∈ d.params) (hn : n ∈ p.nodes) :
    n ∈ d.nodes :=
  List.mem_append_left _ (List.mem_append_left _ (List.mem_flatMap.2 ⟨p, hp, hn⟩))

theorem mem_nodes_of_constraint {c : Constraint} (hc : c ∈ d.constraints) :
    .constraint c ∈ d.nodes :=
  List.mem_append_left _ (List.mem_append_right _ (List.mem_map_of_mem hc))

theorem mem_nodes_of_reason {reason : ParamId × Node} (h : reason ∈ d.reasons) :
    reason.2 ∈ d.nodes :=
  List.mem_append_right _ (List.mem_map_of_mem h)

variable (hops : ∀ n ∈ d.nodes, n.DividesNoInt)
include hops

/-- The constraints on invalid parameters put those recorded together, and divide nothing. -/
theorem allConstraints_dividesNoInt {m : Model} (h : d.finish.result = .ok m) :
    ∀ c ∈ m.allConstraints, (Node.constraint c).DividesNoInt := by
  obtain ⟨built, hbuilt, rfl⟩ := finish_eq_ok.1 h
  refine List.forall_mem_append.2 ⟨fun c hc => hops _ (mem_nodes_of_constraint hc), ?_⟩
  refine built_holds (fun c hc => hc) (fun op lhs rhs hl hr => hl.logic hr) ?_ ?_ (.inl hbuilt)
  · exact fun pid p hp o ho => (by cases ho)
  · exact fun pid c hmem => hops _ (mem_nodes_of_reason hmem)

theorem determines {a : Assignment} {policy : Policy} (ha : a.IsComplete d.params)
    (hcovered : ∀ p ∈ d.params, p.isAuto = true → EndsInTrue p.rules) {pid : ParamId} {p : Param}
    (hp : d.params[pid]? = some p) : Context.Determines ⟨d.params, a, policy⟩ pid p where
  assigned := ha pid p hp
  covered := hcovered p (List.mem_of_getElem? hp)
  condition rule hrule := by
    refine hops _ (mem_nodes_of_param (List.mem_of_getElem? hp) ?_)
    exact List.mem_flatMap.2 ⟨rule, hrule, List.mem_cons_self⟩
  value rule hrule := by
    refine hops _ (mem_nodes_of_param (List.mem_of_getElem? hp) ?_)
    exact List.mem_flatMap.2 ⟨rule, hrule, List.mem_cons_of_mem _ (List.mem_singleton.2 rfl)⟩

end Draft

/-! ## Results -/

section

variable {params : Params} {a : Assignment} (hl : params.Layered)
  (hdet : ∀ pid p, params[pid]? = some p → Context.Determines ⟨params, a, .deciding⟩ pid p)
include hl hdet

theorem Assembled.determined {n : Node} (hn : Assembled params n) (hops : n.DividesNoInt) :
    n.Determined params a := by
  have hbeside (policy : Policy) : Context.Beside True ⟨params, a, .deciding⟩ ⟨params, a, policy⟩ :=
    ⟨List.prefix_rfl, rfl, .inr trivial⟩
  obtain ⟨x, hx, -, hvalid⟩ :=
    Context.node_agreed (hbeside .deciding) hl (fun _ => hdet) hn fun _ => hops
  refine ⟨x, hvalid trivial, fun policy => ?_⟩
  obtain ⟨y, hy, hy', -⟩ :=
    Context.node_agreed (hbeside policy) hl (fun _ => hdet) hn fun _ => hops
  rw [hx] at hy
  cases hy
  exact hy'

omit hl hdet

theorem Node.Determined.constraint {c : Constraint} (h : (Node.constraint c).Determined params a) :
    ∃ v, v.isValid = true ∧ ∀ policy, Context.constraint ⟨params, a, policy⟩ c = .ok v := by
  obtain ⟨x, hvalid, hx⟩ := h
  obtain ⟨v, -, rfl⟩ := map_eq_ok.1 (hx .deciding)
  refine ⟨v, hvalid, fun policy => ?_⟩
  obtain ⟨w, hw, hsame⟩ := map_eq_ok.1 (hx policy)
  cases hsame
  exact hw

end

/-- Nothing stays open. Take a run from an empty draft whose calls draw on literals and on each
other, where each computed parameter has a last rule that always applies and no tree that comes out
divides integers. Under an assignment that gives all other parameters one of their values, each of
these trees has a valid result, and the finished model is legal or violated at some place, under
both policies alike. -/
theorem complete_never_undetermined {L : Type} [Logger L] {b : Builder L} {options : BuildOptions}
    (hempty : b.draft = { options }) {calls : List Call} (h : b.Disciplined [] calls)
    (hcovered : ∀ p ∈ (b.run calls).2.draft.params, p.isAuto = true → EndsInTrue p.rules)
    (hops : ∀ o ∈ (b.run calls).1, ∀ n ∈ o.nodes, n.DividesNoInt)
    {a : Assignment} (ha : a.IsComplete (b.run calls).2.draft.params) :
    (∀ o ∈ (b.run calls).1, ∀ n ∈ o.nodes, n.Determined (b.run calls).2.draft.params a) ∧
    ∀ m, (b.run calls).2.finish = .ok m → ∃ v : Verdict, (∀ i, v ≠ .undetermined i) ∧
      ∀ policy, check m.allConstraints m.params { policy } a = .ok v := by
  have hstart : b.draft.Sound := hempty ▸ Draft.Sound.empty options
  obtain ⟨hsound, houtcomes⟩ := Builder.run_sound hstart (by simp) h
  rw [List.nil_append] at houtcomes
  have hnodes : ∀ n ∈ (b.run calls).2.draft.nodes, n.DividesNoInt := by
    refine Builder.run_holds (fun n hn => .of_isLiteral hn) ?_ (by simp) h hops
    rw [hempty]
    exact fun n hn => (by cases hn)
  have hdet : ∀ pid p, (b.run calls).2.draft.params[pid]? = some p →
      Context.Determines ⟨(b.run calls).2.draft.params, a, .deciding⟩ pid p :=
    fun pid p hp => Draft.determines hnodes ha hcovered hp
  refine ⟨fun o ho n hn => ?_, fun m hm => ?_⟩
  · exact ((houtcomes o ho).nodes n hn).determined hsound.params hdet (hops o ho n hn)
  · obtain ⟨hparams, hconstraints⟩ := hsound.allConstraints hm
    refine Context.check_of_valid fun c hc => Node.Determined.constraint ?_
    have hmodel := (Builder.finish_eq (b.run calls).2).symm.trans hm
    have hops := Draft.allConstraints_dividesNoInt hnodes hmodel c hc
    have hassembled := hconstraints c hc
    rw [hparams] at hassembled ⊢
    exact hassembled.determined hsound.params hdet hops

/-- A computed truth value that has to be true, with a rule for one case and one for the others. -/
theorem complete_never_undetermined_computed :
    let x : Node := .constraint (.param 0)
    let calls : List Call :=
      [.step (.declare "bool" "a" []), .step (.reference "a"),
        .step (.declareAuto "bool" "b" [(x, .bool false), (.bool true, .bool true)]),
        .step (.reference "b"), .step (.addConstraint (.param 1))]
    let b : Builder MessageLog := .new
    let a : Assignment := ⟨[some (.value 0)]⟩
    b.Disciplined [] calls ∧ a.IsComplete (b.run calls).2.draft.params ∧
    (∀ o ∈ (b.run calls).1, ∀ n ∈ o.nodes, n.Determined (b.run calls).2.draft.params a) ∧
    ∃ m, (b.run calls).2.finish = .ok m ∧ ∃ v : Verdict, (∀ i, v ≠ .undetermined i) ∧
      ∀ policy, check m.allConstraints m.params { policy } a = .ok v := by
  intro x calls b a
  let rules : List AutoRule := [⟨.param 0, .bool false⟩, ⟨.bool true, .bool true⟩]
  let params : Params := [.boolean "a", ⟨"b", .bool, .auto rules, false⟩]
  have hdraft : (b.run calls).2.draft = { params, constraints := [.param 1] } := rfl
  have houtcomes : (b.run calls).1 =
      [.ok (.pid 0), .ok (.node x), .ok (.pid 1), .ok (.node (.constraint (.param 1))),
        .ok .done] := rfl
  have hdisciplined : b.Disciplined [] calls := by
    refine ⟨.of_literals rfl rfl, .of_literals rfl rfl, ⟨?_, ?_⟩, .of_literals rfl rfl, ⟨?_, ?_⟩,
      trivial⟩
    · intro n hn
      have hsecond : ∃ o ∈ (b.run (calls.take 2)).1, x ∈ o.nodes :=
        ⟨_, List.mem_iff_getElem?.2 ⟨1, rfl⟩, List.mem_singleton.2 rfl⟩
      rcases List.mem_cons.1 hn with rfl | hn
      · exact .inr hsecond
      · exact .inl (List.all_eq_true (p := Node.isLiteral).1 rfl n hn)
    · intro p hp
      cases hp
    · intro n hn
      cases List.mem_singleton.1 hn
      have hfourth : ∃ o ∈ (b.run (calls.take 4)).1, .constraint (.param 1) ∈ o.nodes :=
        ⟨_, List.mem_iff_getElem?.2 ⟨3, rfl⟩, List.mem_singleton.2 rfl⟩
      exact .inr hfourth
    · intro p hp
      cases hp
  have hcovered : ∀ p ∈ (b.run calls).2.draft.params, p.isAuto = true → EndsInTrue p.rules := by
    rw [hdraft]
    simp [Param.boolean, Param.isAuto, Param.rules, EndsInTrue, params, rules]
  have hops : ∀ o ∈ (b.run calls).1, ∀ n ∈ o.nodes, n.DividesNoInt := by
    rw [houtcomes]
    simp [Outcome.nodes, Answer.nodes, Node.DividesNoInt, Node.operations, Constraint.operations, x]
  have hcomplete : a.IsComplete (b.run calls).2.draft.params := by
    rw [hdraft]
    intro pid p hp hstatic
    rcases pid with _ | _ | pid
    · cases hp
      exact ⟨0, rfl, by decide⟩
    · cases hp
      cases hstatic
    · cases hp
  obtain ⟨htrees, hmodel⟩ :=
    complete_never_undetermined rfl hdisciplined hcovered hops hcomplete
  let m : Model := ⟨params, [.param 1], [.not (.invalid 0), .not (.invalid 1)], [], []⟩
  have hfinish : (b.run calls).2.finish = .ok m := by
    rw [Builder.finish, hdraft]
    rfl
  exact ⟨hdisciplined, hcomplete, htrees, m, hfinish, hmodel m hfinish⟩

end TWay
