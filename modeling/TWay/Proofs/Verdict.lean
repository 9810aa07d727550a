import TWay.Proofs.Check
import TWay.Proofs.Eval.Tracked
import TWay.Proofs.Gather

/-!
# Verdicts

The verdict on a list of constraints is that on the first one which is not true, at its place. So
the verdict on two lists in a row is told from the verdicts on both of them, and whether an
assignment is legal does not depend on the order of the constraints. None of this depends on one
list of what is being resolved going through all evaluations of a check, since each of them leaves
it empty. A check of several assignments makes each check by itself, in whatever way their verdicts
are gathered (`verdict_is_exact`).
-/

namespace TWay

/-- The verdict on constraints that have so many others before them. -/
def Verdict.behind (count : Nat) : Verdict → Verdict
  | .legal => .legal
  | .violated index => .violated (count + index)
  | .undetermined index => .undetermined (count + index)

section

variable {x : Except EvalError Verdict}

theorem Verdict.map_behind_zero : behind 0 <$> x = x := by
  have hbehind : behind 0 = id := by
    funext v
    cases v <;> simp [behind]
  rw [hbehind, id_map]

theorem Verdict.map_behind_next (count : Nat) :
    behind count <$> next <$> x = behind (count + 1) <$> x := by
  have hbehind : (fun v => behind count (next v)) = behind (count + 1) := by
    funext v
    cases v <;> simp [behind, next, Nat.add_assoc, Nat.add_comm 1]
  rw [Functor.map_map, hbehind]

theorem Verdict.map_next_behind (count : Nat) :
    next <$> behind count <$> x = behind (count + 1) <$> x := by
  have hbehind : (fun v => next (behind count v)) = behind (count + 1) := by
    funext v
    cases v <;> simp [behind, next, Nat.add_right_comm]
  rw [Functor.map_map, hbehind]

end

namespace Context

variable {ctx : Context} {cs cs' : List Constraint}

/-! ## Two lists in a row -/

/-- The verdict is on the second list, each place in it counted behind the first one. -/
theorem check_append_of_legal (h : ctx.check cs = .ok .legal) (more : List Constraint) :
    ctx.check (cs ++ more) = Verdict.behind cs.length <$> ctx.check more := by
  induction cs with
  | nil => rw [List.nil_append, List.length_nil, Verdict.map_behind_zero]
  | cons c cs ih =>
    obtain ⟨hc, hcs⟩ := List.forall_mem_cons.1 (check_eq_legal_iff.1 h)
    rw [List.cons_append, check_cons_of_true hc, ih (check_eq_legal_iff.2 hcs), List.length_cons,
      Verdict.map_next_behind]

/-- The second list is not looked at. -/
theorem check_append_of_not_legal (h : ctx.check cs ≠ .ok .legal) (more : List Constraint) :
    ctx.check (cs ++ more) = ctx.check cs := by
  induction cs with
  | nil => exact absurd rfl h
  | cons c cs ih =>
    rw [List.cons_append]
    by_cases hc : ctx.constraint c = .ok (.valid true)
    · have hcs : ctx.check cs ≠ .ok .legal := fun hlegal =>
        h (check_eq_legal_iff.2 (List.forall_mem_cons.2 ⟨hc, check_eq_legal_iff.1 hlegal⟩))
      rw [check_cons_of_true hc, check_cons_of_true hc, ih hcs]
    · rw [check_cons_of_not_true hc, check_cons_of_not_true hc]

/-! ## The same constraints in another list -/

theorem check_legal_congr (h : ∀ c, c ∈ cs' ↔ c ∈ cs) :
    ctx.check cs' = .ok .legal ↔ ctx.check cs = .ok .legal := by
  simp only [check_eq_legal_iff, h]

/-- A constraint that always comes to the same truth. -/
theorem constraint_bool (b : Bool) : ctx.constraint (.bool b) = .ok (.valid b) := by
  rw [constraint, Constraint.eval]

theorem constraint_unknown {pid : ParamId} (h : ctx.params.length ≤ pid) :
    ctx.constraint (.param pid) = .error (.unknownParam pid ctx.params.length) := by
  rw [constraint_eq, Constraint.eval]
  exact read_none (List.getElem?_eq_none h)

/-- Which place is reported depends on the order. -/
theorem exists_perm_other_place (ctx : Context) : ∃ cs cs' i j, cs.Perm cs' ∧ i ≠ j ∧
    ctx.check cs = .ok (.violated i) ∧ ctx.check cs' = .ok (.violated j) := by
  refine ⟨[.bool true, .bool false], [.bool false, .bool true], 1, 0, .swap _ _ _, Nat.one_ne_zero,
    ?_, ?_⟩
  · rw [check_cons_of_true (constraint_bool true), check_cons_of_false (constraint_bool false)]
    rfl
  · exact check_cons_of_false (constraint_bool false)

/-- Which failure is reported depends on the order. -/
theorem exists_perm_other_failure (ctx : Context) : ∃ cs cs' e e', cs.Perm cs' ∧ e ≠ e' ∧
    ctx.check cs = .error e ∧ ctx.check cs' = .error e' := by
  have hfirst : ctx.constraint (.param ctx.params.length) = _ :=
    constraint_unknown (Nat.le_refl _)
  have hsecond : ctx.constraint (.param (ctx.params.length + 1)) = _ :=
    constraint_unknown (Nat.le_succ _)
  refine ⟨[.param ctx.params.length, .param (ctx.params.length + 1)], _, _, _, .swap _ _ _, ?_,
    check_eq_error_iff.2 ⟨0, trueUntil_zero.2 hfirst⟩,
    check_eq_error_iff.2 ⟨0, trueUntil_zero.2 hsecond⟩⟩
  simp

/-! ## One list of what is being resolved -/

/-- The verdict on constraints from the given place on, each evaluated over the list that those
before it have left. -/
def trackedCheck (ctx : Context) (t : TrackedReadings) : Nat → List Constraint → Tracked Verdict
  | _, [] => return .legal
  | index, c :: cs => do
    let result ← c.track ctx.policy t
    if !result.isValid then return .undetermined index
    else if !result.value then return .violated index
    else ctx.trackedCheck t (index + 1) cs

theorem trackedCheck_comesTo {t : TrackedReadings} (h : t.ComesTo [] ctx.reading)
    (cs : List Constraint) (index : Nat) :
    (ctx.trackedCheck t index cs).ComesTo [] (Verdict.behind index <$> ctx.check cs) := by
  induction cs generalizing index with
  | nil => exact .pure _ _
  | cons c cs ih =>
    rw [trackedCheck, check, map_bind]
    -- Whatever the first constraint comes to, the list is empty again for those behind it.
    refine (c.track_comesTo h).bind fun result => ?_
    split
    · exact .pure _ _
    · split
      · exact .pure _ _
      · rw [Verdict.map_behind_next]
        exact ih (index + 1)

/-- The check over one list, which is empty at first, is the check where each constraint starts with
an empty one. -/
theorem trackedCheck_eq (ctx : Context) (cs : List Constraint) :
    ctx.trackedCheck (ctx.tracked (ctx.params.countP Param.isAuto)) 0 cs [] =
      ((ctx.check cs).mapError some, []) := by
  have h := trackedCheck_comesTo ctx.tracked_comesTo_reading cs 0
  rwa [Verdict.map_behind_zero] at h

end Context

/-! ## Several assignments -/

/--
A check says legal exactly if every constraint is true, and otherwise what the first constraint that
is not true comes to by itself: violated at its place if it is false, undetermined there if it is
invalid, its failure if it fails. Of two lists in a row it says what it says of the second one, at a
place counted behind the first, if the first one is legal, and else what it says of the first. Lists
with the same members are legal together, while the order may decide on the place and on the failure
that is reported. The check that hands one list of what is being resolved from constraint to
constraint is the same, and leaves that list empty. However the verdicts on several assignments are
gathered, there are verdicts exactly if each check has one, those verdicts in the order of the
assignments, and a failure is that of one of the checks.
-/
theorem verdict_is_exact (params : Params) (options : EvalOptions) (a : Assignment) :
    let ctx : Context := ⟨params, a, options.policy⟩
    let verdict (cs : List Constraint) := check cs params options a
    (∀ cs, verdict cs = .ok .legal ↔ ∀ c ∈ cs, ctx.constraint c = .ok (.valid true)) ∧
    (∀ cs i, verdict cs = .ok (.violated i) ↔ ctx.TrueUntil cs i (.ok (.valid false))) ∧
    (∀ cs i, verdict cs = .ok (.undetermined i) ↔
      ∃ v, v.isValid = false ∧ ctx.TrueUntil cs i (.ok v)) ∧
    (∀ cs e, verdict cs = .error e ↔ ∃ i, ctx.TrueUntil cs i (.error e)) ∧
    (∀ cs more, verdict cs = .ok .legal →
      verdict (cs ++ more) = Verdict.behind cs.length <$> verdict more) ∧
    (∀ cs more, verdict cs ≠ .ok .legal → verdict (cs ++ more) = verdict cs) ∧
    (∀ cs cs', (∀ c, c ∈ cs' ↔ c ∈ cs) → (verdict cs' = .ok .legal ↔ verdict cs = .ok .legal)) ∧
    (∃ cs cs' i j, cs.Perm cs' ∧ i ≠ j ∧
      verdict cs = .ok (.violated i) ∧ verdict cs' = .ok (.violated j)) ∧
    (∃ cs cs' e e', cs.Perm cs' ∧ e ≠ e' ∧ verdict cs = .error e ∧ verdict cs' = .error e') ∧
    (∀ cs, ctx.trackedCheck (ctx.tracked (params.countP Param.isAuto)) 0 cs [] =
      ((verdict cs).mapError some, [])) ∧
    ∀ gather : Gather EvalError Verdict, gather.Spec → ∀ cs tests,
      ((∃ vs, checkAll gather cs params options tests = .ok vs) ↔
        ∀ test ∈ tests, ∃ v, check cs params options test = .ok v) ∧
      (∀ vs, checkAll gather cs params options tests = .ok vs ↔
        List.Forall₂ (fun test v => check cs params options test = .ok v) tests vs) ∧
      ∀ e, checkAll gather cs params options tests = .error e →
        ∃ test ∈ tests, check cs params options test = .error e := by
  intro ctx verdict
  refine ⟨fun cs => Context.check_eq_legal_iff, fun cs i => Context.check_eq_violated_iff,
    fun cs i => Context.check_eq_undetermined_iff, fun cs e => Context.check_eq_error_iff,
    fun cs more h => Context.check_append_of_legal h more,
    fun cs more h => Context.check_append_of_not_legal h more,
    fun cs cs' h => Context.check_legal_congr h, ctx.exists_perm_other_place,
    ctx.exists_perm_other_failure, ctx.trackedCheck_eq,
    fun gather hgather cs tests => ⟨?_, ?_, ?_⟩⟩
  · exact hgather.exists_map_eq_ok
  · exact fun vs => hgather.map_eq_ok_iff
  · exact fun e h => hgather.exists_of_map_eq_error h

/-- Verdicts that are gathered in order, and a failure. -/
theorem verdict_is_exact_inOrder :
    let params : Params := [.boolean "a"]
    let tests : List Assignment := [⟨[some (.value 0)]⟩, ⟨[some (.value 1)]⟩, ⟨[some .invalid]⟩]
    let verdicts : List Verdict := [.legal, .violated 0, .undetermined 0]
    (Gather.inOrder : Gather EvalError Verdict).Spec ∧
    checkAll Gather.inOrder [.param 0] params {} tests = .ok verdicts ∧
    List.Forall₂ (fun test v => check [.param 0] params {} test = .ok v) tests verdicts ∧
    ∃ e, checkAll Gather.inOrder [.param 1] params {} tests = .error e ∧
      ∃ test ∈ tests, check [.param 1] params {} test = .error e := by
  intro params tests verdicts
  have hverdicts : checkAll Gather.inOrder [.param 0] params {} tests = .ok verdicts := by
    simp only [checkAll, tests, List.map_cons, List.map_nil, check, Context.check,
      Context.constraint_eq]
    rfl
  have hfail : checkAll Gather.inOrder [.param 1] params {} tests = .error (.unknownParam 1 1) := by
    simp only [checkAll, tests, List.map_cons, List.map_nil, check, Context.check,
      Context.constraint_eq]
    rfl
  obtain ⟨-, -, -, -, -, -, -, -, -, -, hexact⟩ := verdict_is_exact params {} ⟨[]⟩
  obtain ⟨-, hpositions, -⟩ := hexact Gather.inOrder Gather.inOrder_spec [.param 0] tests
  obtain ⟨-, -, hfailure⟩ := hexact Gather.inOrder Gather.inOrder_spec [.param 1] tests
  exact ⟨Gather.inOrder_spec, hverdicts, (hpositions verdicts).1 hverdicts, _, hfail,
    hfailure _ hfail⟩

end TWay
