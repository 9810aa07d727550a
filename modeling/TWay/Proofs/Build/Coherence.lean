import TWay.Proofs.Build.Change
import TWay.Proofs.Eval.Typing

/-!
# Doubles stay doubles

An operation takes its static type from its operands, and a reference takes it from the declaration.
So the static types are coherent in all parts of what comes out of a disciplined run and of the
rules it declares, and an integer operation in them is never handed a double
(`run_types_coherent`).
-/

namespace TWay

/-- The rules of a parameter consist of trees over the others. -/
theorem Param.Over.assembled {others : Params} {p : Param} (h : p.Over others) {n : Node}
    (hn : n ∈ p.nodes) : Assembled others n := by
  obtain ⟨rule, hrule, hn⟩ := List.mem_flatMap.1 hn
  rcases List.mem_cons.1 hn with rfl | hn
  · exact h.condition rule hrule
  · exact List.mem_singleton.1 hn ▸ h.value rule hrule

theorem Params.Layered.over {params : Params} (h : params.Layered) {p : Param} (hp : p ∈ params) :
    p.Over params := by
  obtain ⟨pid, hpid⟩ := List.mem_iff_getElem?.1 hp
  exact (h pid p hpid).mono (List.take_prefix pid params)

/-- Static types are coherent, so that doubles are never narrowed in silence. Take a run from an
empty draft whose calls draw on literals and on each other, a tree that is a literal, has come out
of the run or stands in a rule of a parameter that was added, and any part of that tree. The types
at the root of the part are coherent. Under every assignment and either policy, an integer operation
there is applied to integers, and a double becomes an integer only in a cast to integers or where a
computed integer is read. -/
theorem run_types_coherent {L : Type} [Logger L] {b : Builder L} {options : BuildOptions}
    (hempty : b.draft = { options }) {calls : List Call} (h : b.Disciplined [] calls) {n m : Node}
    (hn : n.isLiteral = true ∨ (∃ o ∈ (b.run calls).1, n ∈ o.nodes) ∨
      ∃ p ∈ (b.run calls).2.draft.params, n ∈ p.nodes) (hm : n.Contains m) :
    m.Coherent (b.run calls).2.draft.params ∧
      ∀ (a : Assignment) (policy : Policy),
        m.KeepsDoubles ⟨(b.run calls).2.draft.params, a, policy⟩ := by
  have hstart : b.draft.Sound := hempty ▸ Draft.Sound.empty options
  obtain ⟨hsound, houtcomes⟩ := Builder.run_sound hstart (by simp) h
  rw [List.nil_append] at houtcomes
  have hassembled : Assembled (b.run calls).2.draft.params n := by
    rcases hn with hliteral | ⟨o, ho, hmem⟩ | ⟨p, hp, hmem⟩
    · exact .literal hliteral
    · exact (houtcomes o ho).nodes n hmem
    · exact (hsound.params.over hp).assembled hmem
  have hcoherent := (hassembled.part hm).coherent
  refine ⟨hcoherent, fun a policy => hcoherent.keepsDoubles fun p hp => ?_⟩
  exact (hsound.params.over hp).value_type

/-- A computed integer whose rule gives a double, in a sum of integers. -/
theorem run_types_coherent_computed :
    let x : Node := .arith (.param 0 .double)
    let y : ArithExpr := .param 1 .int
    let one : ArithExpr := .int 1 "1"
    let calls : List Call :=
      [.step (.declare "double" "x" [.arith (.double 1.5 "1.5")]), .step (.reference "x"),
        .step (.declareAuto "int" "y" [(.bool true, x)]), .step (.reference "y"),
        .step (.arith .add (some (.arith y)) (some (.arith one)))]
    let sum : Node := .arith (.binary .add .int y one)
    let b : Builder MessageLog := .new
    b.Disciplined [] calls ∧ (∃ o ∈ (b.run calls).1, sum ∈ o.nodes) ∧
      sum.Coherent (b.run calls).2.draft.params ∧
      ∀ (a : Assignment) (policy : Policy),
        sum.KeepsDoubles ⟨(b.run calls).2.draft.params, a, policy⟩ := by
  intro x y one calls sum b
  have hdisciplined : b.Disciplined [] calls := by
    refine ⟨.of_literals rfl rfl, .of_literals rfl rfl, ⟨?_, ?_⟩, .of_literals rfl rfl, ⟨?_, ?_⟩,
      trivial⟩
    · intro n hn
      have hsecond : ∃ o ∈ (b.run (calls.take 2)).1, x ∈ o.nodes :=
        ⟨_, List.mem_iff_getElem?.2 ⟨1, rfl⟩, List.mem_singleton.2 rfl⟩
      rcases List.mem_cons.1 hn with rfl | hn
      · exact .inl rfl
      · exact .inr (List.mem_singleton.1 hn ▸ hsecond)
    · intro p hp
      cases hp
    · intro n hn
      have hfourth : ∃ o ∈ (b.run (calls.take 4)).1, .arith y ∈ o.nodes :=
        ⟨_, List.mem_iff_getElem?.2 ⟨3, rfl⟩, List.mem_singleton.2 rfl⟩
      rcases List.mem_cons.1 hn with rfl | hn
      · exact .inr hfourth
      · exact .inl (List.mem_singleton.1 hn ▸ rfl)
    · intro p hp
      cases hp
  have hsum : ∃ o ∈ (b.run calls).1, sum ∈ o.nodes :=
    ⟨_, List.mem_iff_getElem?.2 ⟨4, rfl⟩, List.mem_singleton.2 rfl⟩
  have hempty : b.draft = { options := {} } := rfl
  exact ⟨hdisciplined, hsum, run_types_coherent hempty hdisciplined (.inr (.inl hsum)) .refl⟩

end TWay
