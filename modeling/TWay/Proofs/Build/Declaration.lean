import TWay.Proofs.Build.Change
import TWay.Proofs.Eval.Agreement
import TWay.Proofs.Expr.Render

/-!
# Later declarations

What has come out of a disciplined run keeps its meaning and its looks, whatever is called for
afterwards (`node_keeps_meaning`). A declaration puts its parameter behind the others, and all that
such a tree can reach, through the rules of computed parameters at any depth, was there before.
-/

namespace TWay

/-- Parameters that come behind the others do not show. -/
theorem Assembled.display_mono {params params' : Params} (hle : params <+: params') {n : Node}
    (h : Assembled params n) : n.display params = n.display params' := by
  refine Node.render_congr fun u hu => ?_
  obtain ⟨p, hp, -⟩ := h.uses_fit u hu
  simp only [Params.nameOf, hp, getElem?_mono hle hp]

/-- Declarations take effect on later trees only. After a disciplined run from an empty draft, let
more calls follow, of any kind. A literal, and a tree that has come out of the run, evaluates to the
same result over the parameters before and after those calls, under every assignment and either
policy, and is shown in the same way. -/
theorem node_keeps_meaning {L : Type} [Logger L] {b : Builder L} {options : BuildOptions}
    (hempty : b.draft = { options }) {before : List Call} (h : b.Disciplined [] before)
    (after : List Call) {n : Node}
    (hn : n.isLiteral = true ∨ ∃ o ∈ (b.run before).1, n ∈ o.nodes) :
    (∀ (a : Assignment) (policy : Policy), ∃ x,
      Context.node ⟨(b.run before).2.draft.params, a, policy⟩ n = .ok x ∧
        Context.node ⟨(b.run (before ++ after)).2.draft.params, a, policy⟩ n = .ok x) ∧
    n.display (b.run before).2.draft.params =
      n.display (b.run (before ++ after)).2.draft.params := by
  have hstart : b.draft.Sound := hempty ▸ Draft.Sound.empty options
  obtain ⟨hsound, houtcomes⟩ := Builder.run_sound hstart (by simp) h
  rw [List.nil_append] at houtcomes
  have hassembled : Assembled (b.run before).2.draft.params n := by
    rcases hn with hliteral | ⟨o, ho, hmem⟩
    · exact .literal hliteral
    · exact (houtcomes o ho).nodes n hmem
  have hle : (b.run before).2.draft.params <+: (b.run (before ++ after)).2.draft.params := by
    rw [Builder.run_append]
    exact (Builder.run_grows after _).params
  refine ⟨fun a policy => ?_, hassembled.display_mono hle⟩
  have hbeside : Context.Beside False ⟨(b.run before).2.draft.params, a, policy⟩
      ⟨(b.run (before ++ after)).2.draft.params, a, policy⟩ := ⟨hle, rfl, .inl rfl⟩
  obtain ⟨x, hx, hx', -⟩ :=
    Context.node_agreed hbeside hsound.params False.elim hassembled False.elim
  exact ⟨x, hx, hx'⟩

/-- A computed parameter is read before and after another one is declared. -/
theorem node_keeps_meaning_computed :
    let a : Node := .arith (.param 0 .int)
    let before : List Call :=
      [.step (.declare "int" "a" [.arith (.int 1 "1")]), .step (.reference "a"),
        .step (.declareAuto "int" "b" [(.bool true, a)]), .step (.reference "b")]
    let after : List Call := [.step (.declare "string" "c" [])]
    let b : Builder MessageLog := .new
    b.Disciplined [] before ∧
    (∀ (assigned : Assignment) (policy : Policy), ∃ x,
      Context.node ⟨(b.run before).2.draft.params, assigned, policy⟩ (.arith (.param 1 .int)) =
          .ok x ∧
        Context.node ⟨(b.run (before ++ after)).2.draft.params, assigned, policy⟩
          (.arith (.param 1 .int)) = .ok x) ∧
    Node.display (b.run before).2.draft.params (.arith (.param 1 .int)) =
      Node.display (b.run (before ++ after)).2.draft.params (.arith (.param 1 .int)) := by
  intro a before after b
  have hsecond : .ok (.node a) ∈ [(b.call before[0]).1, ((b.call before[0]).2.call before[1]).1] :=
    List.mem_cons_of_mem _ (List.mem_singleton.2 rfl)
  have hdisciplined : b.Disciplined [] before := by
    refine ⟨.of_literals rfl rfl, .of_literals rfl rfl, ⟨?_, ?_⟩, .of_literals rfl rfl, trivial⟩
    · intro n hn
      rcases List.mem_cons.1 hn with rfl | hn
      · exact .inl rfl
      · cases List.mem_singleton.1 hn
        exact .inr ⟨.ok (.node a), hsecond, List.mem_singleton.2 rfl⟩
    · intro p hp
      cases hp
  have hlast : .ok (.node (.arith (.param 1 .int))) ∈ (b.run before).1 :=
    List.mem_iff_getElem?.2 ⟨3, rfl⟩
  exact ⟨hdisciplined, node_keeps_meaning rfl hdisciplined after
    (.inr ⟨_, hlast, List.mem_singleton.2 rfl⟩)⟩

end TWay
