import TWay.Proofs.Build.Run
import TWay.Proofs.Eval.Agreement

/-!
# What a run builds can be evaluated

No evaluation of what comes out of a disciplined run can fail, whatever is assigned and whatever
invalid operands do: no parameter is missing, none is read as what it is not, and none depends on
itself (`run_evaluates`).
-/

namespace TWay

theorem Draft.Sound.allConstraints {L : Type} [Logger L] {b : Builder L} (hd : b.draft.Sound)
    {m : Model} (h : b.finish = .ok m) :
    m.params = b.draft.params ∧ ∀ c ∈ m.allConstraints, Assembled m.params (.constraint c) := by
  obtain ⟨built, hbuilt, rfl⟩ := Builder.finish_eq_ok.1 h
  exact ⟨rfl, List.forall_mem_append.2 ⟨hd.constraints, hd.invalidations (.inl hbuilt)⟩⟩

/-- Assembled models evaluate. In a run from an empty draft whose calls draw on literals and on
each other, every tree that comes out evaluates to a result over the parameters at its end, under
every assignment and either policy, and so do all constraints of the finished model. -/
theorem run_evaluates {L : Type} [Logger L] {b : Builder L} {options : BuildOptions}
    (hempty : b.draft = { options }) {calls : List Call} (h : b.Disciplined [] calls)
    (a : Assignment) (policy : Policy) :
    (∀ o ∈ (b.run calls).1, ∀ n ∈ o.nodes,
      ∃ x, Context.node ⟨(b.run calls).2.draft.params, a, policy⟩ n = .ok x) ∧
    ∀ m, (b.run calls).2.finish = .ok m → ∀ c ∈ m.allConstraints,
      ∃ v, Context.constraint ⟨m.params, a, policy⟩ c = .ok v := by
  have hstart : b.draft.Sound := hempty ▸ Draft.Sound.empty options
  obtain ⟨hsound, houtcomes⟩ := Builder.run_sound hstart (by simp) h
  rw [List.nil_append] at houtcomes
  refine ⟨fun o ho n hn => ?_, fun m hm c hc => ?_⟩
  · exact Context.node_total hsound.params ((houtcomes o ho).nodes n hn)
  · obtain ⟨hparams, hconstraints⟩ := hsound.allConstraints hm
    exact Context.constraint_total (hparams ▸ hsound.params) (hconstraints c hc)

/-- A computed parameter reads one before it, and is asked whether it is invalid. -/
theorem run_evaluates_computed :
    let a : Node := .arith (.param 0 .int)
    let calls : List Call :=
      [.step (.declare "int" "a" [.arith (.int 1 "1")]), .step (.reference "a"),
        .step (.declareAuto "int" "b" [(.bool true, a)]), .step (.marker "b")]
    let b : Builder MessageLog := .new
    b.Disciplined [] calls ∧
    (∀ o ∈ (b.run calls).1, ∀ n ∈ o.nodes,
      ∃ x, Context.node ⟨(b.run calls).2.draft.params, .empty, .absorbing⟩ n = .ok x) ∧
    ∀ m, (b.run calls).2.finish = .ok m → ∀ c ∈ m.allConstraints,
      ∃ v, Context.constraint ⟨m.params, .empty, .absorbing⟩ c = .ok v := by
  intro a calls b
  have hdisciplined : b.Disciplined [] calls := by
    refine ⟨⟨?_, ?_⟩, ⟨?_, ?_⟩, ⟨?_, ?_⟩, ⟨?_, ?_⟩, trivial⟩
    · intro n hn
      exact .inl (List.mem_singleton.1 hn ▸ rfl)
    · intro p hp
      cases hp
    · intro n hn
      cases hn
    · intro p hp
      cases hp
    · intro n hn
      rcases List.mem_cons.1 hn with rfl | hn
      · exact .inl rfl
      · cases List.mem_singleton.1 hn
        have hsecond : .ok (.node a) = ((b.call calls[0]).2.call calls[1]).1 := rfl
        exact .inr ⟨.ok (.node a), List.mem_append_right _ (List.mem_singleton.2 hsecond),
          List.mem_singleton.2 rfl⟩
    · intro p hp
      cases hp
    · intro n hn
      cases hn
    · intro p hp
      cases hp
  have hempty : b.draft = { options := {} } := rfl
  exact ⟨hdisciplined, run_evaluates hempty hdisciplined .empty .absorbing⟩

end TWay
