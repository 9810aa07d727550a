import TWay.Proofs.Coverage.Asked

/-!
# Parameters without values

A subset with a parameter that has no values asks for nothing. The subsets that are left are those
of the parameters that have some, in the same order, so that a strength may as well be taken over
these alone (`valueless_parameters_invisible`). Computed parameters are among those without values.
-/

namespace TWay

variable {params : Params} {s : Strength}

/-- The parameters of a strength that have values, with the same degree. -/
def Strength.valued (params : Params) (s : Strength) : Strength :=
  ⟨s.pids.filter params.hasValues, s.degree⟩

theorem Strength.flatMap_subsets_valued (params : Params) (s : Strength) :
    (s.valued params).subsets.flatMap (picks (choicesFor params.valueCount)) =
      s.subsets.flatMap (picks (choicesFor params.valueCount)) := by
  have hselections := flatMap_picks_selections (choicesFor params.valueCount) s.degree s.pids
  simp only [← Params.hasValues_eq] at hselections
  rw [subsets_eq, subsets_eq, ← hselections, valued]

/-- Parameters without values do not count. Over parameters that are there, a strength has the same
targets in the same order as the one that keeps only those of them that have values, and any tests
leave the same of them uncovered. -/
theorem valueless_parameters_invisible (hthere : ∀ pid ∈ s.pids, pid < params.length) :
    ∃ targets, s.targets params = .ok targets ∧ (s.valued params).targets params = .ok targets ∧
      ∀ tests, (s.valued params).uncovered params tests = s.uncovered params tests := by
  have hvalued : ∀ pid ∈ (s.valued params).pids, pid < params.length :=
    fun pid hpid => hthere pid (List.mem_filter.1 hpid).1
  have ht := Strength.targets_eq_picks hthere
  have ht' := Strength.targets_eq_picks hvalued
  rw [Strength.flatMap_subsets_valued] at ht'
  refine ⟨_, ht, ht', fun tests => ?_⟩
  rw [Strength.uncovered_of_targets ht, Strength.uncovered_of_targets ht']

/-- Neither a computed parameter nor one without a value is seen. -/
theorem valueless_parameters_invisible_computed :
    let params : Params := [.boolean "a",
      ⟨"b", .int, .auto [⟨.bool true, .arith (.int 1 "1")⟩], false⟩,
      ⟨"c", .string, .values [], false⟩, .boolean "d"]
    let s : Strength := ⟨[0, 1, 2, 3], 2⟩
    (∀ pid ∈ s.pids, pid < params.length) ∧ s.valued params = ⟨[0, 3], 2⟩ ∧
      ∃ targets, s.targets params = .ok targets ∧
        Strength.targets params ⟨[0, 3], 2⟩ = .ok targets ∧ targets.length = 4 := by
  intro params s
  have hthere : ∀ pid ∈ s.pids, pid < params.length := by decide
  have hvalued : s.valued params = ⟨[0, 3], 2⟩ := rfl
  obtain ⟨targets, ht, ht', -⟩ := valueless_parameters_invisible hthere
  rw [hvalued] at ht'
  refine ⟨hthere, hvalued, targets, ht, ht', ?_⟩
  rw [Strength.length_targets ht']
  decide

end TWay
