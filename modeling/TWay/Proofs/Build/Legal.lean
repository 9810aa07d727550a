import TWay.Proofs.Build.Condition
import TWay.Proofs.Build.Param
import TWay.Proofs.Build.Step
import TWay.Proofs.Check
import TWay.Proofs.Eval.Validity

/-!
# What legality says about invalid parameters

A legal assignment of a finished model is complete, and leaves a parameter invalid exactly when one
of the reasons recorded for it holds (`legal_iff_reasons`). That rests on what the constraint for a
parameter says when it is true (`Context.invalidWhen_true`), whatever an invalid operand does to a
disjunction, and on what it means for a parameter of either kind to be known as invalid or not.
-/

namespace TWay

namespace Context

variable {ctx : Context} {pid : ParamId} {p : Param}

/-! ## Invalid parameters -/

/-- A parameter from a list of values is invalid if it is said to be, or if its value is not in the
list. A computed one is if reading it gives nothing valid. -/
def IsInvalid (ctx : Context) (pid : ParamId) (p : Param) : Prop :=
  match p.domain with
  | .values values =>
    ctx.assignment.get? pid = some .invalid ∨
      ∃ vid, ctx.assignment.get? pid = some (.value vid) ∧ values.length ≤ vid
  | .auto _ => ∃ x, ctx.node (p.type.reference pid) = .ok x ∧ x.isValid = false

/-- A parameter that is known to be invalid or not is assigned where it is to be chosen. -/
theorem assigned_of_known {t : Bool} (hp : ctx.params[pid]? = some p) (hstatic : p.isAuto = false)
    (h : ctx.constraint (.invalid pid) = .ok (.valid t)) : ctx.assignment.get? pid ≠ none := by
  have hd := Param.domain_of_static hstatic
  intro hnone
  rw [constraint_invalid_eq, readInvalid_values hp hd, hnone] at h
  cases h

theorem isInvalid_iff {t : Bool} (hp : ctx.params[pid]? = some p)
    (h : ctx.constraint (.invalid pid) = .ok (.valid t)) : ctx.IsInvalid pid p ↔ t = true := by
  rw [constraint_invalid_eq] at h
  unfold IsInvalid
  cases hd : p.domain with
  | values values =>
    rw [readInvalid_values hp hd] at h
    cases hget : ctx.assignment.get? pid with
    | none => simp [hget, Evaluated.invalid, Evaluated.valid] at h
    | some slot =>
      cases slot with
      | invalid =>
        rw [hget] at h
        cases h
        simp
      | value vid =>
        rw [hget] at h
        cases h
        simp
  | auto rules =>
    obtain ⟨x, hx, hvalid⟩ := (readInvalid_auto_eq_ok hp hd).1 h
    obtain ⟨y, hy, hyx⟩ := node_reference hx
    have ht : t = !y.isValid := by
      rw [hyx]
      exact congrArg Evaluated.value hvalid
    simp only
    constructor
    · rintro ⟨z, hz, hinvalid⟩
      rw [hy] at hz
      cases hz
      rw [ht, hinvalid]
      rfl
    · intro htrue
      exact ⟨y, hy, by simpa [htrue] using ht.symm⟩

end Context

/-- Legal assignments are complete and follow the recorded reasons. Under a legal assignment of a
finished model each parameter with a list of values is assigned, each parameter is invalid if one of
its recorded reasons is valid and true and only then, and one without a reason reads as a valid
value. -/
theorem legal_iff_reasons {L : Type} [Logger L] {b : Builder L} {m : Model}
    (hfinish : b.finish = .ok m) (hbuilt : ∀ p ∈ m.params, p.IsBuilt) {policy : Policy}
    {a : Assignment} (hlegal : check m.allConstraints m.params ⟨policy⟩ a = .ok .legal)
    {pid : ParamId} {p : Param} (hp : m.params[pid]? = some p) :
    let ctx : Context := ⟨m.params, a, policy⟩
    (p.isAuto = false → a.get? pid ≠ none) ∧
    (ctx.IsInvalid pid p ↔
      ∃ c, .constraint c ∈ b.draft.reasonsFor pid ∧ ctx.constraint c = .ok (.valid true)) ∧
    (b.draft.reasonsFor pid = [] →
      ∃ x, ctx.node (p.type.reference pid) = .ok x ∧ x.isValid = true) := by
  intro ctx
  have htype := (hbuilt p (List.mem_of_getElem? hp)).value_type
  obtain ⟨cs, hcs, rfl⟩ := Builder.finish_eq_ok.1 hfinish
  obtain ⟨conditions, hreasons, hmem⟩ := Draft.invalidWhen_mem hcs hp
  have htrue : ctx.constraint (Draft.invalidWhen pid conditions) = .ok (.valid true) :=
    Context.check_eq_legal_iff.1 hlegal _ (List.mem_append_right _ hmem)
  obtain ⟨t, ht, hiff⟩ := Context.invalidWhen_true htrue
  refine ⟨fun hstatic => Context.assigned_of_known hp hstatic ht, ?_, fun hnone => ?_⟩
  · rw [Context.isInvalid_iff hp ht, hiff, hreasons]
    simp
  · rw [hnone, eq_comm, List.map_eq_nil_iff] at hreasons
    subst hreasons
    have hfalse : t = false := by simpa using hiff
    subst hfalse
    rw [Context.constraint_invalid_eq] at ht
    obtain ⟨x, hx, hvalid⟩ := Context.readAs_of_not_invalid hp htype ht
    obtain ⟨y, hy, hyx⟩ := Context.node_reference hx
    exact ⟨y, hy, hyx.trans hvalid⟩

/-- A parameter that has to be left invalid, because another one is true. -/
theorem legal_iff_reasons_boolean :
    let run := (.new : Builder MessageLog).run
      [.step (.declare "bool" "a" []), .step (.declare "bool" "b" []),
        .step (.record ["b"] (.constraint (.param 0)))]
    let m : Model :=
      ⟨[.boolean "a", .boolean "b"], [],
        [.not (.invalid 0), .logic .iff (.param 0) (.invalid 1)], [], []⟩
    let a : Assignment := ⟨[some (.value 0), some .invalid]⟩
    run.2.finish = .ok m ∧ check m.allConstraints m.params ⟨.deciding⟩ a = .ok .legal ∧
      (Context.IsInvalid ⟨m.params, a, .deciding⟩ 1 (.boolean "b") ↔
        ∃ c, .constraint c ∈ run.2.draft.reasonsFor 1 ∧
          Context.constraint ⟨m.params, a, .deciding⟩ c = .ok (.valid true)) := by
  intro run m a
  have hfinish : run.2.finish = .ok m := rfl
  have hlegal : check m.allConstraints m.params ⟨.deciding⟩ a = .ok .legal := by
    refine Context.check_eq_legal_iff.2 fun c hc => ?_
    rw [Context.constraint_eq]
    rcases List.mem_cons.1 hc with rfl | hc
    · rfl
    · cases List.mem_singleton.1 hc
      rfl
  have hbuilt : ∀ p ∈ m.params, p.IsBuilt := by
    have hboolean : ∀ name, (Param.boolean name).IsBuilt :=
      fun name => ⟨.boolean name, false, rfl, .inl ⟨"bool", name, [], rfl⟩⟩
    simp [m, hboolean]
  exact ⟨hfinish, hlegal, (legal_iff_reasons hfinish hbuilt hlegal rfl).2.1⟩

end TWay
