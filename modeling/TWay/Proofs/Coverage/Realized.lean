import TWay.Proofs.Coverage.Enumeration
import TWay.Proofs.Coverage.Report

/-!
# What one test covers

A test makes at most one choice for a parameter. Of what is picked from the choices for some
parameters a single one is left when only those of the test are kept, or nothing if the test has
none of the values of one of them. The targets that it realizes are therefore the selections of its
own choices (`Strength.realized_eq`), and there is a binomial coefficient of them
(`one_test_covers`).
-/

namespace TWay

variable {α β : Type} {params : Params} {s : Strength} {targets : List (List Choice)}

/-- Where at most one entry can be picked, entries without any are skipped. -/
theorem flatMap_picks_toList (f : α → Option β) (t : Nat) (xs : List α) :
    (selections t xs).flatMap (picks fun x => (f x).toList) = selections t (xs.filterMap f) := by
  fun_induction selections t xs with
  | case1 xs => simp [picks, selections]
  | case2 t => rfl
  | case3 t x xs ihwith ihwithout =>
    rw [List.flatMap_append, List.flatMap_map, ihwithout]
    cases hx : f x with
    | none => simp [picks, hx]
    | some y => simp [picks, hx, selections, ← ihwith, List.map_flatMap]

theorem filter_range_eq (o : Option Nat) (n : Nat) :
    (List.range n).filter (fun i => o == some i) = (o.filter (· < n)).toList := by
  cases o with
  | none => simp
  | some v =>
    have hsame : (fun i => some v == some i) = (· == v) := by
      funext i
      exact Bool.beq_comm
    rw [hsame, List.filter_beq, List.nodup_range.count, Option.filter_some]
    by_cases hv : v < n <;> simp [hv]

namespace Assignment

/-- The choice that a test makes for a parameter, when it is one of its values. -/
def choice? (params : Params) (test : Assignment) (pid : ParamId) : Option Choice :=
  ((test.valueId? pid).filter (· < params.valueCount pid)).map (Choice.mk pid)

theorem isSome_choice? (params : Params) (test : Assignment) (pid : ParamId) :
    (test.choice? params pid).isSome = (test.valueId? pid).any (· < params.valueCount pid) := by
  rw [choice?, Option.isSome_map, Option.isSome_filter]

theorem filter_choicesFor (params : Params) (test : Assignment) (pid : ParamId) :
    (choicesFor params.valueCount pid).filter (fun c => test.valueId? c.pid == some c.vid) =
      (test.choice? params pid).toList := by
  rw [choicesFor, List.filter_map, choice?, Option.toList_map, ← filter_range_eq]
  rfl

end Assignment

theorem Strength.realized_eq (ht : s.targets params = .ok targets) (test : Assignment) :
    targets.filter test.realizes =
      selections s.degree (s.pids.filterMap (test.choice? params)) := by
  have hrealizes : test.realizes = (List.all · fun c => test.valueId? c.pid == some c.vid) := rfl
  rw [(targets_eq_ok_iff.1 ht).2, List.filter_flatMap, hrealizes]
  simp only [filter_picks, Assignment.filter_choicesFor]
  rw [subsets_eq, flatMap_picks_toList]

theorem Strength.countP_realizes (ht : s.targets params = .ok targets) (test : Assignment) :
    targets.countP test.realizes =
      (s.pids.countP fun pid =>
        (test.valueId? pid).any (· < params.valueCount pid)).choose s.degree := by
  rw [List.countP_eq_length_filter, realized_eq ht, length_selections,
    List.length_filterMap_eq_countP]
  simp only [Assignment.isSome_choice?]

/-- One test covers a binomial coefficient of targets. Over parameters that are there, the targets
that a test realizes are those that it does not leave uncovered by itself, and they are as many as
there are selections, of the size that the degree says, from the parameters for which the test has
one of their values. A parameter that a strength names several times counts each time. -/
theorem one_test_covers (hthere : ∀ pid ∈ s.pids, pid < params.length) (test : Assignment) :
    ∃ targets missing, s.targets params = .ok targets ∧ s.uncovered params [test] = .ok missing ∧
      missing.length ≤ targets.length ∧
      targets.countP test.realizes = targets.length - missing.length ∧
      targets.length - missing.length =
        (s.pids.countP fun pid =>
          (test.valueId? pid).any (· < params.valueCount pid)).choose s.degree := by
  obtain ⟨targets, ht⟩ : ∃ targets, s.targets params = .ok targets :=
    ⟨_, Strength.targets_eq hthere⟩
  have hcovered : targets.countP test.realizes =
      targets.length - (unrealized [test] targets).length := by
    have hreport := CoverageReport.covered_eq_countP s [test] targets
    simp only [List.any_cons, List.any_nil, Bool.or_false] at hreport
    exact hreport.symm
  exact ⟨targets, _, ht, Strength.uncovered_of_targets ht [test], List.length_filter_le _ targets,
    hcovered, hcovered.symm.trans (Strength.countP_realizes ht test)⟩

/-- A test that leaves out one of five parameters and has none of the values of another covers the
pairs of the other three. -/
theorem one_test_covers_pairs :
    let params : Params := ["a", "b", "c", "d", "e"].map Param.boolean
    let s : Strength := ⟨[0, 1, 2, 3, 4], 2⟩
    let test : Assignment :=
      ⟨[some (.value 1), none, some (.value 0), some (.value 7), some (.value 1)]⟩
    (∀ pid ∈ s.pids, pid < params.length) ∧
      ∃ targets missing, s.targets params = .ok targets ∧ s.uncovered params [test] = .ok missing ∧
        targets.length - missing.length = 3 := by
  intro params s test
  have hthere : ∀ pid ∈ s.pids, pid < params.length := by decide
  obtain ⟨targets, missing, ht, hmissing, -, -, hcount⟩ := one_test_covers hthere test
  exact ⟨hthere, targets, missing, ht, hmissing, hcount.trans rfl⟩

end TWay
