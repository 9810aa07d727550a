import TWay.Proofs.Assignment
import TWay.Proofs.Coverage.Asked
import TWay.Proofs.Gather

/-!
# What the tests do not cover

A test covers a combination of values when it has each of them in the slot of its parameter. What is
reported as uncovered are the targets that no test realizes, in their order, so that it only matters
which tests there are, and there is nothing to report just if each combination that is asked for is
covered by one of the tests. The reports on several strengths tell the same, with the numbers that
belong to it, in whatever way they are gathered (`coverage_is_exact`).
-/

namespace TWay

variable {params : Params} {s : Strength} {tests more : List Assignment} {test : Assignment}
  {targets : List (List Choice)} {target : List Choice}

/-! ## Unrealized targets -/

theorem unrealized_eq_filter (tests : List Assignment) (targets : List (List Choice)) :
    unrealized tests targets =
      targets.filter fun target => ∀ test ∈ tests, ¬ test.realizes target = true := by
  refine List.filter_congr fun target _ => ?_
  rw [Bool.eq_iff_iff, decide_eq_true_iff]
  simp

theorem mem_unrealized :
    target ∈ unrealized tests targets ↔
      target ∈ targets ∧ ∀ test ∈ tests, ¬ test.realizes target = true := by
  rw [unrealized_eq_filter, List.mem_filter, decide_eq_true_iff]

theorem unrealized_congr {tests' : List Assignment} (h : ∀ test, test ∈ tests' ↔ test ∈ tests)
    (targets : List (List Choice)) : unrealized tests' targets = unrealized tests targets := by
  simp only [unrealized_eq_filter, h]

/-- More tests are looked through for what the others have left. -/
theorem unrealized_append (tests more : List Assignment) (targets : List (List Choice)) :
    unrealized (tests ++ more) targets = unrealized more (unrealized tests targets) := by
  rw [unrealized, unrealized, unrealized, List.filter_filter]
  refine List.filter_congr fun target _ => ?_
  rw [List.any_append, Bool.not_or, Bool.and_comm]

theorem unrealized_append_eq_filter (tests more : List Assignment)
    (targets : List (List Choice)) :
    unrealized (tests ++ more) targets = targets.filter fun target =>
      target ∈ unrealized tests targets ∧ target ∈ unrealized more targets := by
  rw [unrealized]
  refine List.filter_congr fun target htarget => ?_
  rw [Bool.eq_iff_iff, decide_eq_true_iff, mem_unrealized, mem_unrealized]
  simp [htarget]

/-! ## Strengths -/

namespace Strength

/-- The test has this value in the slot of the parameter at a place. -/
def IsChosenAt (s : Strength) (test : Assignment) (vid : ValueId) (place : Nat) : Prop :=
  ∃ pid, s.pids[place]? = some pid ∧ test.get? pid = some (.value vid)

theorem realizes_target {places : List Nat} {vids : List ValueId}
    (h : List.Forall₂ (s.IsValueAt params) vids places) :
    test.realizes (s.target places vids) = true ↔
      List.Forall₂ (s.IsChosenAt test) vids places := by
  induction h with
  | nil => simp [target, Assignment.realizes]
  | @cons vid place vids places hvalue hvalues ih =>
    obtain ⟨pid, p, hpid, -⟩ := hvalue
    have hchosen : s.IsChosenAt test vid place ↔ test.get? pid = some (.value vid) := by
      simp [IsChosenAt, hpid]
    rw [Assignment.realizes_eq_true] at ih ⊢
    rw [target_cons hpid, List.forall_mem_cons, List.forall₂_cons, ih, hchosen]

/-- The tests cover a strength when one of them has the values of each combination. -/
theorem unrealized_eq_nil_iff (ht : s.targets params = .ok targets) :
    unrealized tests targets = [] ↔ ∀ places vids, s.AsksFor params places vids →
      ∃ test ∈ tests, List.Forall₂ (s.IsChosenAt test) vids places := by
  simp only [unrealized_eq_nil, mem_targets_iff ht]
  constructor
  · intro h places vids hasked
    obtain ⟨test, htest, hrealizes⟩ := h _ ⟨places, vids, hasked, rfl⟩
    exact ⟨test, htest, (realizes_target hasked.values).1 hrealizes⟩
  · rintro h _ ⟨places, vids, hasked, rfl⟩
    obtain ⟨test, htest, hchosen⟩ := h places vids hasked
    exact ⟨test, htest, (realizes_target hasked.values).2 hchosen⟩

end Strength

/-! ## Reports -/

namespace CoverageReport

theorem ofStrength_eq_ok {r : CoverageReport} :
    ofStrength params tests s = .ok r ↔ ∃ targets, s.targets params = .ok targets ∧
      r = ⟨s, targets.length, unrealized tests targets⟩ := by
  rw [ofStrength, bind_eq_ok]
  simp only [pure_eq_ok, eq_comm (b := r)]

theorem covered_eq_countP (s : Strength) (tests : List Assignment)
    (targets : List (List Choice)) :
    covered ⟨s, targets.length, unrealized tests targets⟩ =
      targets.countP fun target => tests.any fun test => test.realizes target := by
  have hsum := targets.length_eq_countP_add_countP fun target =>
    tests.any fun test => test.realizes target
  have huncovered : (unrealized tests targets).length =
      targets.countP fun target => decide ¬(tests.any fun test => test.realizes target) = true := by
    rw [unrealized, ← List.countP_eq_length_filter]
    simp only [Bool.not_eq_true, Bool.decide_eq_false]
  show targets.length - (unrealized tests targets).length = _
  omega

end CoverageReport

theorem exists_coverageReport {gather : Gather EvalError CoverageReport} (h : gather.Spec)
    {strengths : List Strength} :
    (∃ reports, coverageReport gather params tests strengths = .ok reports) ↔
      ∀ s ∈ strengths, ∃ targets, s.targets params = .ok targets := by
  simp only [coverageReport, h.exists_map_eq_ok, CoverageReport.ofStrength_eq_ok]
  constructor
  · intro h s hs
    obtain ⟨r, targets, ht, -⟩ := h s hs
    exact ⟨targets, ht⟩
  · intro h s hs
    obtain ⟨targets, ht⟩ := h s hs
    exact ⟨_, targets, ht, rfl⟩

/-- Coverage is told exactly, and it only depends on which tests there are. For a strength that has
targets, the uncovered ones are those that no test realizes, in their order; there is none just if
for every combination that the strength asks for some test has all of its values in its slots.
Tests in another order or several times over leave the same uncovered, and more tests leave what is
uncovered by these and by the others, which is a part of it. However the reports on several
strengths are gathered, there are reports just if each strength has targets, one for each in their
order, with the number of its targets and what is uncovered of it. There are no more uncovered
targets than targets, and the others are those that some test realizes. -/
theorem coverage_is_exact (params : Params) (tests : List Assignment) :
    (∀ s targets, Strength.targets params s = .ok targets →
      ∃ missing, s.uncovered params tests = .ok missing ∧
        missing = targets.filter (fun target => ∀ test ∈ tests, ¬ test.realizes target = true) ∧
        (missing = [] ↔ ∀ places vids, s.AsksFor params places vids →
          ∃ test ∈ tests, List.Forall₂ (s.IsChosenAt test) vids places) ∧
        (∀ tests', (∀ test, test ∈ tests' ↔ test ∈ tests) →
          s.uncovered params tests' = .ok missing) ∧
        ∀ more, ∃ missing' both, s.uncovered params more = .ok missing' ∧
          s.uncovered params (tests ++ more) = .ok both ∧
          both = targets.filter (fun target => target ∈ missing ∧ target ∈ missing') ∧
          both.Sublist missing) ∧
    ∀ gather : Gather EvalError CoverageReport, gather.Spec → ∀ strengths,
      ((∃ reports, coverageReport gather params tests strengths = .ok reports) ↔
        ∀ s ∈ strengths, ∃ targets, s.targets params = .ok targets) ∧
      ∀ reports, coverageReport gather params tests strengths = .ok reports →
        List.Forall₂ (fun s r => ∃ targets, s.targets params = .ok targets ∧ r.strength = s ∧
          r.total = targets.length ∧ s.uncovered params tests = .ok r.uncovered ∧
          r.uncovered.length ≤ r.total ∧
          r.covered = targets.countP fun target => tests.any fun test => test.realizes target)
          strengths reports := by
  constructor
  · intro s targets ht
    refine ⟨_, Strength.uncovered_of_targets ht tests, unrealized_eq_filter tests targets,
      Strength.unrealized_eq_nil_iff ht, ?_, ?_⟩
    · intro tests' hsame
      rw [Strength.uncovered_of_targets ht, unrealized_congr hsame]
    · intro more
      refine ⟨_, _, Strength.uncovered_of_targets ht more, Strength.uncovered_of_targets ht _,
        unrealized_append_eq_filter tests more targets, ?_⟩
      rw [unrealized_append]
      exact List.filter_sublist
  · intro gather hgather strengths
    refine ⟨exists_coverageReport hgather, fun reports hreports => ?_⟩
    refine (hgather.map_eq_ok_iff.1 hreports).imp fun s r hr => ?_
    obtain ⟨targets, ht, rfl⟩ := CoverageReport.ofStrength_eq_ok.1 hr
    exact ⟨targets, ht, rfl, rfl, Strength.uncovered_of_targets ht tests,
      List.length_filter_le _ targets, CoverageReport.covered_eq_countP s tests targets⟩

/-- A report, gathered in order. A slot that is invalid, and one whose value the parameter does not
have, cover nothing. -/
theorem coverage_is_exact_inOrder :
    let params : Params := [.boolean "a", .boolean "b"]
    let tests : List Assignment := [⟨[some (.value 0), some (.value 1)]⟩,
      ⟨[some (.value 1), some .invalid]⟩, ⟨[some (.value 7), some (.value 0)]⟩]
    let strengths : List Strength := [⟨[0, 1], 2⟩]
    let reports : List CoverageReport :=
      [⟨⟨[0, 1], 2⟩, 4, [[⟨0, 0⟩, ⟨1, 0⟩], [⟨0, 1⟩, ⟨1, 0⟩], [⟨0, 1⟩, ⟨1, 1⟩]]⟩]
    (Gather.inOrder : Gather EvalError CoverageReport).Spec ∧
    coverageReport Gather.inOrder params tests strengths = .ok reports ∧
    List.Forall₂ (fun s r => s.uncovered params tests = .ok r.uncovered ∧
      ∃ targets, s.targets params = .ok targets ∧
        r.covered = targets.countP fun target => tests.any fun test => test.realizes target)
      strengths reports := by
  intro params tests strengths reports
  have hthere : ∀ pid ∈ [0, 1], pid < params.length := by decide
  have hpairs : Strength.targets params ⟨[0, 1], 2⟩ =
      .ok [[⟨0, 0⟩, ⟨1, 0⟩], [⟨0, 0⟩, ⟨1, 1⟩], [⟨0, 1⟩, ⟨1, 0⟩], [⟨0, 1⟩, ⟨1, 1⟩]] := by
    have hselections : selections 2 [0, 1] = [[0, 1]] := rfl
    rw [Strength.targets_eq hthere, Strength.subsets_eq]
    simp only [hselections, List.flatMap_cons, List.flatMap_nil, List.map, choicesOver_cons,
      choicesOver_nil]
    rfl
  have hreports : coverageReport Gather.inOrder params tests strengths = .ok reports := by
    simp only [coverageReport, strengths, List.map, CoverageReport.ofStrength, hpairs]
    rfl
  obtain ⟨-, hexact⟩ :=
    (coverage_is_exact params tests).2 Gather.inOrder Gather.inOrder_spec strengths
  refine ⟨Gather.inOrder_spec, hreports, (hexact reports hreports).imp fun s r hr => ?_⟩
  obtain ⟨targets, ht, -, -, huncovered, -, hcovered⟩ := hr
  exact ⟨huncovered, targets, ht, hcovered⟩

end TWay
