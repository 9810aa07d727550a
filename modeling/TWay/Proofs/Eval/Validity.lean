import TWay.Proofs.Eval.Agreement

/-!
# Whether a parameter is invalid

There are two ways to find out whether a parameter is invalid: to ask, and to read it. They agree,
as long as the values of a list have the type of their parameter
(`Context.invalid_agrees_with_reading`). Asking comes to the opposite of whether reading gives a
value that counts, and fails where reading does (`Context.readInvalid_eq`). Only of a parameter that
is still to be assigned is there no answer.
-/

namespace TWay

variable {ε : Type}

namespace Context

variable {ctx : Context} {fail : EvalError → ε} {enter : ParamId → Except ε (Readings ε)}
  {pid : ParamId} {p : Param}

/-- A parameter from a list reads as a value that counts where one is chosen. -/
theorem readAs_of_static (hp : ctx.params[pid]? = some p) (hstatic : p.isAuto = false)
    (htype : ∀ v ∈ p.values, v.value.type = p.type) :
    ∃ x, ctx.readAs p.type fail enter pid = .ok x ∧
      x.isValid = (ctx.chosen? pid p.values).isSome := by
  have hd := Param.domain_of_static hstatic
  obtain ⟨x, hx, -, hvalid⟩ : ∃ x, ctx.readAs p.type fail enter pid = .ok x ∧
      ctx.readAs p.type fail enter pid = .ok x ∧
      x.isValid = (ctx.chosen? pid p.values).isSome := by
    -- Both of the contexts that are set side by side are this one.
    refine readAs_of_read fun hk => ?_
    cases hchosen : ctx.chosen? pid p.values with
    | none =>
      exact ⟨.invalid, read_of_unchosen hp hd hchosen, read_of_unchosen hp hd hchosen,
        hk.isValid _⟩
    | some value =>
      obtain ⟨x, hx⟩ := hk.value value (chosen?_type htype hchosen)
      exact ⟨.valid x, read_of_chosen hp hd hchosen hx, read_of_chosen hp hd hchosen hx,
        hk.isValid _⟩
  exact ⟨x, hx, hvalid⟩

/-- Whether a parameter is invalid, told from what it reads as. -/
theorem readInvalid_eq (hp : ctx.params[pid]? = some p)
    (htype : ∀ v ∈ p.values, v.value.type = p.type) :
    ctx.readInvalid fail enter pid = (do
      let x ← ctx.readAs p.type fail enter pid
      return if p.isAuto = false ∧ ctx.assignment.get? pid = none then .invalid
        else .valid !x.isValid) := by
  cases hauto : p.isAuto with
  | true =>
    rw [readInvalid_auto hp (Param.domain_of_auto hauto)]
    simp only [Bool.true_eq_false, false_and, if_false]
  | false =>
    have hd := Param.domain_of_static hauto
    obtain ⟨x, hx, hvalid⟩ := readAs_of_static hp hauto htype
    rw [hx, ok_bind, hvalid]
    cases hget : ctx.assignment.get? pid with
    | none =>
      rw [readInvalid_values hp hd, hget]
      rfl
    | some slot =>
      by_cases hslot : slot.LeavesInvalid p.values.length
      · rw [readInvalid_of_leavesInvalid hp hd hget hslot, chosen?_of_leavesInvalid hget hslot]
        rfl
      · cases slot with
        | value vid =>
          have hlt : vid < p.values.length := Nat.lt_of_not_le hslot
          have hwithin : decide (p.values.length ≤ vid) = false := decide_eq_false hslot
          rw [readInvalid_values hp hd, hget, chosen?_of_get? hget hlt]
          simp only [hwithin]
          rfl
        | invalid => exact absurd trivial hslot

/-- A parameter that is known not to be invalid reads as a valid value of its type. -/
theorem readAs_of_not_invalid (hp : ctx.params[pid]? = some p)
    (htype : ∀ v ∈ p.values, v.value.type = p.type)
    (h : ctx.readInvalid fail enter pid = .ok (.valid false)) :
    ∃ x, ctx.readAs p.type fail enter pid = .ok x ∧ x.isValid = true := by
  rw [readInvalid_eq hp htype, bind_eq_ok] at h
  obtain ⟨x, hx, h⟩ := h
  refine ⟨x, hx, ?_⟩
  split at h
  · cases h
  · simpa [Evaluated.valid] using pure_eq_ok.1 h

/-! ## Asking and reading -/

/-- Asking whether a parameter is invalid, told from the tree that reads it. -/
theorem constraint_invalid_eq_reference (hp : ctx.params[pid]? = some p)
    (htype : ∀ v ∈ p.values, v.value.type = p.type) :
    ctx.constraint (.invalid pid) = (do
      let x ← ctx.node (p.type.reference pid)
      return if p.isAuto = false ∧ ctx.assignment.get? pid = none then .invalid
        else .valid !x.isValid) := by
  have hsame := isValid_node_reference ctx pid p.type
  rw [constraint_invalid_eq, readInvalid_eq hp htype]
  cases hread : ctx.readAs p.type id (ctx.entering []) pid with
  | error e =>
    rw [hread] at hsame
    cases hnode : ctx.node (p.type.reference pid) with
    | error e' =>
      rw [hnode] at hsame
      cases hsame
      rfl
    | ok y =>
      rw [hnode] at hsame
      cases hsame
  | ok x =>
    obtain ⟨y, hy, hyx⟩ := node_reference hread
    rw [hy, ok_bind, ok_bind, hyx]

/-- A parameter that is to be assigned reads as nothing that counts. -/
theorem node_reference_of_unassigned (hp : ctx.params[pid]? = some p) (hstatic : p.isAuto = false)
    (htype : ∀ v ∈ p.values, v.value.type = p.type) (hget : ctx.assignment.get? pid = none) :
    ∃ x, ctx.node (p.type.reference pid) = .ok x ∧ x.isValid = false := by
  obtain ⟨x, hx, hvalid⟩ := readAs_of_static hp hstatic htype
  obtain ⟨y, hy, hyx⟩ := node_reference hx
  refine ⟨y, hy, ?_⟩
  rw [hyx, hvalid]
  simp [chosen?, Assignment.valueId?, hget]

/-- Asking agrees with reading. Where the tree that reads a parameter fails, asking whether the
parameter is invalid fails in the same way. Elsewhere asking has an answer, which is a definite no
exactly if the value that is read counts. The answer is left open exactly for a parameter with a
list of values that is not assigned, and that one reads as nothing that counts. -/
theorem invalid_agrees_with_reading (hp : ctx.params[pid]? = some p)
    (htype : ∀ v ∈ p.values, v.value.type = p.type) :
    (∀ e, ctx.node (p.type.reference pid) = .error e →
      ctx.constraint (.invalid pid) = .error e) ∧
    (∀ x, ctx.node (p.type.reference pid) = .ok x →
      ∃ v, ctx.constraint (.invalid pid) = .ok v ∧ (x.isValid = true ↔ v = .valid false)) ∧
    ((∃ v, ctx.constraint (.invalid pid) = .ok v ∧ v.isValid = false) ↔
      p.isAuto = false ∧ ctx.assignment.get? pid = none) ∧
    (p.isAuto = false → ctx.assignment.get? pid = none →
      ∃ x, ctx.node (p.type.reference pid) = .ok x ∧ x.isValid = false) := by
  have hask := constraint_invalid_eq_reference hp htype
  refine ⟨?_, ?_, ?_, fun hstatic hget => node_reference_of_unassigned hp hstatic htype hget⟩
  · intro e he
    rw [hask, he]
    rfl
  · intro x hx
    rw [hask, hx, ok_bind]
    refine ⟨_, rfl, ?_⟩
    split
    · rename_i hopen
      obtain ⟨y, hy, hinvalid⟩ := node_reference_of_unassigned hp hopen.1 htype hopen.2
      rw [hx] at hy
      cases hy
      simp [hinvalid, Evaluated.invalid, Evaluated.valid]
    · simp [Evaluated.valid]
  · constructor
    · rintro ⟨v, hv, hinvalid⟩
      rw [hask] at hv
      obtain ⟨x, -, hv⟩ := bind_eq_ok.1 hv
      by_contra hdefinite
      rw [if_neg hdefinite] at hv
      cases hv
      cases hinvalid
    · rintro ⟨hstatic, hget⟩
      obtain ⟨x, hx, -⟩ := node_reference_of_unassigned hp hstatic htype hget
      refine ⟨.invalid, ?_, rfl⟩
      rw [hask, hx, ok_bind, if_pos ⟨hstatic, hget⟩]
      rfl

/-- A computed parameter that takes over the value of one left invalid, one that is its own value,
and one that is still to be assigned. -/
theorem invalid_agrees_with_reading_computed :
    let ctx : Context :=
      ⟨[⟨"a", .int, .values [⟨"1", .int 1⟩], false⟩,
        ⟨"b", .double, .auto [⟨.bool true, .arith (.param 0 .int)⟩], false⟩,
        ⟨"c", .int, .auto [⟨.bool true, .arith (.param 2 .int)⟩], false⟩, .boolean "d"],
        ⟨[some .invalid]⟩, .deciding⟩
    ctx.constraint (.invalid 1) = .ok (.valid true) ∧
      ctx.constraint (.invalid 2) = .error (.autoCycle "c") ∧
      ∃ v, ctx.constraint (.invalid 3) = .ok v ∧ v.isValid = false := by
  intro ctx
  have hinvalid : ctx.node (.arith (.param 1 .double)) =
      .ok (.num ⟨.double (nearestDouble 0), false⟩) := by
    rw [node_number, read_auto rfl rfl, entering_of_not_mem rfl rfl (by simp), ok_bind,
      resolving_eq]
    rfl
  have hcycle : ctx.node (.arith (.param 2 .int)) = .error (.autoCycle "c") := by
    rw [node_number, read_auto rfl rfl, entering_of_not_mem rfl rfl (by simp), ok_bind,
      resolving_eq]
    rfl
  have hb := invalid_agrees_with_reading (show ctx.params[1]? = some _ from rfl) (by decide)
  have hc := invalid_agrees_with_reading (show ctx.params[2]? = some _ from rfl) (by decide)
  have hd := invalid_agrees_with_reading (show ctx.params[3]? = some _ from rfl) (by decide)
  refine ⟨?_, hc.1 _ hcycle, hd.2.2.1.2 ⟨rfl, rfl⟩⟩
  obtain ⟨v, hv, hagree⟩ := hb.2.1 _ hinvalid
  rcases v.truth_cases with rfl | rfl | hopen
  · exact hv
  · cases hagree.2 rfl
  · cases (hb.2.2.1.1 ⟨v, hv, hopen⟩).1

end Context

end TWay
