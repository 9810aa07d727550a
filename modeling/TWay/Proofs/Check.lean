import TWay.Check
import TWay.Proofs.Eval.Policy
import TWay.Proofs.Except

/-!
# What a verdict says

A check looks at one constraint after the other, so that its verdict is a statement about single
constraints: all of them are true (`check_eq_legal_iff`), or the one at a place is the first that is
not, and the verdict is what that one makes of it (`check_eq_iff_stop`).
-/

namespace TWay

namespace Verdict

/-- The verdict, or the failure, where a constraint at this place is not true. -/
def stop (index : Nat) : Except EvalError (Evaluated Bool) → Except EvalError Verdict
  | .error e => .error e
  | .ok v => .ok (if v.isValid then .violated index else .undetermined index)

variable {index i : Nat} {r : Except EvalError (Evaluated Bool)} {e : EvalError}

theorem next_stop : next <$> stop index r = stop (index + 1) r := by
  cases r with
  | error e => rfl
  | ok v => cases h : v.isValid <;> simp [stop, h, next]

theorem stop_ne_legal : stop index r ≠ .ok .legal := by
  cases r with
  | error e => simp [stop]
  | ok v => cases h : v.isValid <;> simp [stop, h]

theorem stop_eq_violated :
    stop index r = .ok (.violated i) ↔ index = i ∧ ∃ v, r = .ok v ∧ v.isValid = true := by
  cases r with
  | error e => simp [stop]
  | ok v => cases h : v.isValid <;> simp [stop, h]

theorem stop_eq_undetermined :
    stop index r = .ok (.undetermined i) ↔ index = i ∧ ∃ v, r = .ok v ∧ v.isValid = false := by
  cases r with
  | error e => simp [stop]
  | ok v => cases h : v.isValid <;> simp [stop, h]

theorem stop_eq_error : stop index r = .error e ↔ r = .error e := by
  cases r <;> simp [stop]

end Verdict

namespace Context

variable {ctx : Context} {c : Constraint} {cs : List Constraint}

theorem check_cons_of_true (h : ctx.constraint c = .ok (.valid true)) :
    ctx.check (c :: cs) = Verdict.next <$> ctx.check cs := by
  rw [check, h]
  rfl

theorem check_cons_of_false (h : ctx.constraint c = .ok (.valid false)) :
    ctx.check (c :: cs) = .ok (.violated 0) := by
  rw [check, h]
  rfl

theorem check_cons_of_invalid {a : Evaluated Bool} (h : ctx.constraint c = .ok a)
    (ha : a.isValid = false) : ctx.check (c :: cs) = .ok (.undetermined 0) := by
  rw [check, h]
  simp [bind, Except.bind, pure, Except.pure, ha]

/-- A check that comes to a verdict has a result of its first constraint. -/
theorem constraint_of_check_cons {v : Verdict} (h : ctx.check (c :: cs) = .ok v) :
    ∃ a, ctx.constraint c = .ok a := by
  rw [check, bind_eq_ok] at h
  obtain ⟨a, ha, -⟩ := h
  exact ⟨a, ha⟩

/-- Nothing stands against an assignment exactly if every constraint is true. -/
theorem check_eq_legal_iff :
    ctx.check cs = .ok .legal ↔ ∀ c ∈ cs, ctx.constraint c = .ok (.valid true) := by
  induction cs with
  | nil => simp [check]
  | cons c cs ih =>
    rw [List.forall_mem_cons, ← ih]
    constructor
    · intro h
      obtain ⟨a, ha⟩ := constraint_of_check_cons h
      rcases a.truth_cases with rfl | rfl | hv
      · rw [check_cons_of_true ha, map_eq_ok] at h
        obtain ⟨v, hv, hnext⟩ := h
        cases v with
        | legal => exact ⟨ha, hv⟩
        | violated => cases hnext
        | undetermined => cases hnext
      · rw [check_cons_of_false ha] at h
        cases h
      · rw [check_cons_of_invalid ha hv] at h
        cases h
    · rintro ⟨hc, hcs⟩
      rw [check_cons_of_true hc, hcs]
      rfl

/-! ## The first constraint that is not true -/

theorem check_cons_of_not_true (h : ctx.constraint c ≠ .ok (.valid true)) :
    ctx.check (c :: cs) = Verdict.stop 0 (ctx.constraint c) := by
  cases hc : ctx.constraint c with
  | error e =>
    rw [check, hc]
    rfl
  | ok a =>
    rcases a.truth_cases with rfl | rfl | hinvalid
    · exact absurd hc h
    · rw [check_cons_of_false hc]
      rfl
    · rw [check_cons_of_invalid hc hinvalid, Verdict.stop, hinvalid]
      rfl

/-- Up to this place every constraint is true, and the one there comes to the given result. -/
def TrueUntil (ctx : Context) (cs : List Constraint) (index : Nat)
    (r : Except EvalError (Evaluated Bool)) : Prop :=
  (∀ c ∈ cs.take index, ctx.constraint c = .ok (.valid true)) ∧
    ∃ c, cs[index]? = some c ∧ ctx.constraint c = r

theorem trueUntil_zero {r : Except EvalError (Evaluated Bool)} :
    ctx.TrueUntil (c :: cs) 0 r ↔ ctx.constraint c = r := by
  simp [TrueUntil]

theorem trueUntil_succ {index : Nat} {r : Except EvalError (Evaluated Bool)} :
    ctx.TrueUntil (c :: cs) (index + 1) r ↔
      ctx.constraint c = .ok (.valid true) ∧ ctx.TrueUntil cs index r := by
  simp [TrueUntil, and_assoc]

/-- A check that does not say legal says what the first constraint that is not true makes of it. -/
theorem check_eq_iff_stop {o : Except EvalError Verdict} (ho : o ≠ .ok .legal) :
    ctx.check cs = o ↔ ∃ index r, ctx.TrueUntil cs index r ∧ r ≠ .ok (.valid true) ∧
      o = Verdict.stop index r := by
  induction cs generalizing o with
  | nil => simp [check, TrueUntil, ho.symm]
  | cons c cs ih =>
    by_cases hc : ctx.constraint c = .ok (.valid true)
    · rw [check_cons_of_true hc]
      constructor
      · rintro rfl
        have hrest : ctx.check cs ≠ .ok .legal := fun hlegal => ho (by rw [hlegal]; rfl)
        obtain ⟨index, r, huntil, hr, hstop⟩ := (ih hrest).1 rfl
        exact ⟨index + 1, r, trueUntil_succ.2 ⟨hc, huntil⟩, hr, by rw [hstop, Verdict.next_stop]⟩
      · rintro ⟨index, r, huntil, hr, rfl⟩
        cases index with
        | zero => exact absurd ((trueUntil_zero.1 huntil).symm.trans hc) hr
        | succ index =>
          have hrest := (trueUntil_succ.1 huntil).2
          rw [(ih Verdict.stop_ne_legal).2 ⟨index, r, hrest, hr, rfl⟩, Verdict.next_stop]
    · rw [check_cons_of_not_true hc]
      constructor
      · rintro rfl
        exact ⟨0, _, trueUntil_zero.2 rfl, hc, rfl⟩
      · rintro ⟨index, r, huntil, hr, rfl⟩
        cases index with
        | zero => rw [trueUntil_zero.1 huntil]
        | succ index => exact absurd (trueUntil_succ.1 huntil).1 hc

/-- What is violated is false, and everything before it is true. -/
theorem check_eq_violated_iff {i : Nat} :
    ctx.check cs = .ok (.violated i) ↔ ctx.TrueUntil cs i (.ok (.valid false)) := by
  rw [check_eq_iff_stop (by simp)]
  simp only [eq_comm (b := Verdict.stop _ _), Verdict.stop_eq_violated]
  constructor
  · rintro ⟨_, _, huntil, hne, rfl, v, rfl, hv⟩
    rcases v.truth_cases with rfl | rfl | hinvalid
    · exact absurd rfl hne
    · exact huntil
    · rw [hv] at hinvalid
      cases hinvalid
  · exact fun huntil => ⟨i, _, huntil, by simp [Evaluated.valid], rfl, _, rfl, rfl⟩

/-- What is undetermined is invalid, and everything before it is true. -/
theorem check_eq_undetermined_iff {i : Nat} :
    ctx.check cs = .ok (.undetermined i) ↔
      ∃ v, v.isValid = false ∧ ctx.TrueUntil cs i (.ok v) := by
  rw [check_eq_iff_stop (by simp)]
  simp only [eq_comm (b := Verdict.stop _ _), Verdict.stop_eq_undetermined]
  constructor
  · rintro ⟨_, _, huntil, -, rfl, v, rfl, hv⟩
    exact ⟨v, hv, huntil⟩
  · rintro ⟨v, hv, huntil⟩
    refine ⟨i, _, huntil, ?_, rfl, v, rfl, hv⟩
    rintro htrue
    cases htrue
    cases hv

/-- A check fails with the failure of a constraint that has only true ones before it. -/
theorem check_eq_error_iff {e : EvalError} :
    ctx.check cs = .error e ↔ ∃ i, ctx.TrueUntil cs i (.error e) := by
  rw [check_eq_iff_stop (by simp)]
  simp only [eq_comm (b := Verdict.stop _ _), Verdict.stop_eq_error]
  constructor
  · rintro ⟨i, _, huntil, -, rfl⟩
    exact ⟨i, huntil⟩
  · rintro ⟨i, huntil⟩
    exact ⟨i, _, huntil, by simp, rfl⟩

/-- A verdict that does not leave it open stays where every truth of a constraint does. -/
theorem check_of_truths {ctx' : Context}
    (h : ∀ c ∈ cs, ∀ b, ctx.constraint c = .ok (.valid b) → ctx'.constraint c = .ok (.valid b))
    {v : Verdict} (hv : ctx.check cs = .ok v) (hdecided : ∀ i, v ≠ .undetermined i) :
    ctx'.check cs = .ok v := by
  cases v with
  | legal =>
    rw [check_eq_legal_iff] at hv ⊢
    exact fun c hc => h c hc true (hv c hc)
  | violated i =>
    rw [check_eq_violated_iff] at hv ⊢
    obtain ⟨hbefore, c, hget, hfalse⟩ := hv
    refine ⟨fun c' hc' => ?_, c, hget, h c (List.mem_of_getElem? hget) false hfalse⟩
    exact h c' (List.mem_of_mem_take hc') true (hbefore c' hc')
  | undetermined i => exact absurd rfl (hdecided i)

/-- Where no constraint has another result than true, no other verdict than legal comes out. -/
theorem check_legal_of_true {v : Verdict}
    (htrue : ∀ c ∈ cs, ∀ a, ctx.constraint c = .ok a → a = .valid true)
    (h : ctx.check cs = .ok v) : v = .legal := by
  induction cs generalizing v with
  | nil =>
    cases h
    rfl
  | cons c cs ih =>
    rw [List.forall_mem_cons] at htrue
    obtain ⟨a, ha⟩ := constraint_of_check_cons h
    have htrue_c := htrue.1 a ha
    subst htrue_c
    rw [check_cons_of_true ha, map_eq_ok] at h
    obtain ⟨w, hw, rfl⟩ := h
    rw [ih htrue.2 hw]
    rfl

/-- Where every constraint has a valid result that does not depend on the policy, there is a verdict
that does not, and it is one of legal and violated. -/
theorem check_of_valid {params : Params} {a : Assignment} {cs : List Constraint}
    (h : ∀ c ∈ cs, ∃ v, v.isValid = true ∧
      ∀ policy, Context.constraint ⟨params, a, policy⟩ c = .ok v) :
    ∃ v, (∀ i, v ≠ .undetermined i) ∧ ∀ policy, Context.check ⟨params, a, policy⟩ cs = .ok v := by
  induction cs with
  | nil => exact ⟨.legal, by simp, fun policy => rfl⟩
  | cons c cs ih =>
    rw [List.forall_mem_cons] at h
    obtain ⟨⟨r, hvalid, hr⟩, hcs⟩ := h
    rcases r.truth_cases with rfl | rfl | hinvalid
    · obtain ⟨v, hv, hcheck⟩ := ih hcs
      refine ⟨v.next, ?_, fun policy => ?_⟩
      · cases v with
        | undetermined i => exact absurd rfl (hv i)
        | _ => simp [Verdict.next]
      · rw [check_cons_of_true (hr policy), hcheck policy]
        rfl
    · exact ⟨.violated 0, by simp, fun policy => check_cons_of_false (hr policy)⟩
    · rw [hvalid] at hinvalid
      cases hinvalid

end Context

end TWay
