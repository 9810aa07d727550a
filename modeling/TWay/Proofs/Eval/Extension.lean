import TWay.Proofs.Check
import TWay.Proofs.Eval.Policy
import TWay.Proofs.Eval.Reading
import TWay.Proofs.Eval.Relation

/-!
# Filling in a partial assignment

A search for tests fills in an assignment step by step, and gives one up as soon as a constraint is
violated. That is right for constraints over parameters with a list of values: what counts under a
partial assignment stays when more of it is filled in (`answers_stay`). The point is the deciding
policy, under which a connective can have a result before both of its operands do: then the operand
that is there settles it, whatever the other one comes to (`Policy.logic_of_invalid_left`).

Where an evaluation of the fuller assignment fails, nothing is said: a string whose first term was
invalid may go on to a term that cannot be read.
-/

namespace TWay

variable {ε ε' : Type}

/-- Every slot stays; those that are unassigned may be filled. -/
def Assignment.Extends (a a' : Assignment) : Prop :=
  ∀ pid slot, a.get? pid = some slot → a'.get? pid = some slot

/-- No parameter that occurs in the tree is computed. -/
def Node.IsStatic (params : Params) (n : Node) : Prop :=
  ∀ u ∈ n.uses, ∀ p, params[u.pid]? = some p → p.isAuto = false

/-! ## Results that stay -/

namespace ResultRel

/-- What counts on the left is the result on the right, if there is one. -/
def stable : ResultRel ε ε' := fun _ x y => ∀ v w, x = .ok v → v.isValid = true → y = .ok w → w = v

theorem stable_kept (policy : Policy) : (stable : ResultRel ε ε').Kept policy policy where
  valid a v w hv _ hw := by
    cases hv
    cases hw
    rfl
  map f x x' h v w hv hvalid hw := by
    obtain ⟨a, ha, hv⟩ := bind_eq_ok.1 hv
    obtain ⟨a', ha', hw⟩ := bind_eq_ok.1 hw
    rw [← pure_eq_ok.1 hv] at hvalid ⊢
    rw [← pure_eq_ok.1 hw, h a a' ha hvalid ha']
  both f x x' y y' hx hy v w hv hvalid hw := by
    obtain ⟨a, ha, hv⟩ := bind_eq_ok.1 hv
    obtain ⟨b, hb, hv⟩ := bind_eq_ok.1 hv
    obtain ⟨a', ha', hw⟩ := bind_eq_ok.1 hw
    obtain ⟨b', hb', hw⟩ := bind_eq_ok.1 hw
    rw [← pure_eq_ok.1 hv] at hvalid ⊢
    obtain ⟨hva, hvb⟩ := Evaluated.isValid_both hvalid
    rw [← pure_eq_ok.1 hw, hx a a' ha hva ha', hy b b' hb hvb hb']
  logic op x y x' y' hx hy v w hv hvalid hw := by
    obtain ⟨a, ha, hv⟩ := bind_eq_ok.1 hv
    obtain ⟨b, hb, hv⟩ := bind_eq_ok.1 hv
    obtain ⟨a', ha', hw⟩ := bind_eq_ok.1 hw
    obtain ⟨b', hb', hw⟩ := bind_eq_ok.1 hw
    rw [← pure_eq_ok.1 hv] at hvalid ⊢
    rw [← pure_eq_ok.1 hw]
    exact Policy.logic_stable (fun h => hx a a' ha h ha') (fun h => hy b b' hb h hb') hvalid

theorem stable_keptByTerms : (stable : ResultRel ε ε').KeptByTerms where
  const s v w hv _ hw := by
    cases hv
    cases hw
    rfl
  append hx hy v w hv hvalid hw := by
    obtain ⟨a, ha, hv⟩ := bind_eq_ok.1 hv
    obtain ⟨a', ha', hw⟩ := bind_eq_ok.1 hw
    split at hv
    · rename_i hva
      rw [hx a a' ha hva ha', if_pos hva] at hw
      obtain ⟨b, hb, hv⟩ := bind_eq_ok.1 hv
      obtain ⟨b', hb', hw⟩ := bind_eq_ok.1 hw
      rw [← pure_eq_ok.1 hv] at hvalid ⊢
      rw [← pure_eq_ok.1 hw, hy b b' hb (Evaluated.isValid_both hvalid).2 hb']
    · rw [← pure_eq_ok.1 hv] at hvalid
      cases hvalid

end ResultRel

section

variable {r : Readings ε} {r' : Readings ε'} {policy : Policy}

theorem StrExpr.eval_stable (e : StrExpr) (h : ∀ u ∈ e.uses, ResultRel.stable.At r r' u) :
    ResultRel.stable String (e.eval r) (e.eval r') :=
  StrExpr.eval_related ResultRel.stable_keptByTerms e h

theorem Node.eval_stable {n : Node} {x y : Evaluation}
    (h : ∀ u ∈ n.uses, ResultRel.stable.At r r' u) (hx : n.eval policy r = .ok x)
    (hvalid : x.isValid = true) (hy : n.eval policy r' = .ok y) : y = x := by
  have hkept : (ResultRel.stable : ResultRel ε ε').Kept policy policy :=
    ResultRel.stable_kept policy
  cases n with
  | arith e =>
    obtain ⟨v, hv, rfl⟩ := map_eq_ok.1 hx
    obtain ⟨w, hw, rfl⟩ := map_eq_ok.1 hy
    rw [ArithExpr.eval_related hkept StrExpr.eval_stable e h v w hv hvalid hw]
  | string e =>
    obtain ⟨v, hv, rfl⟩ := map_eq_ok.1 hx
    obtain ⟨w, hw, rfl⟩ := map_eq_ok.1 hy
    rw [e.eval_stable h v w hv hvalid hw]
  | constraint c =>
    obtain ⟨v, hv, rfl⟩ := map_eq_ok.1 hx
    obtain ⟨w, hw, rfl⟩ := map_eq_ok.1 hy
    rw [Constraint.eval_related hkept StrExpr.eval_stable c h v w hv hvalid hw]

end

/-! ## Parameters with a list of values -/

namespace Assignment

variable {a a' : Assignment}

theorem Extends.valueId? {pid : ParamId} {vid : ValueId} (h : a.Extends a')
    (hv : a.valueId? pid = some vid) : a'.valueId? pid = some vid := by
  unfold Assignment.valueId? at hv ⊢
  split at hv
  · rename_i hget
    rw [h pid _ hget]
    exact hv
  · cases hv

end Assignment

section

variable {params : Params} {policy : Policy} {a a' : Assignment} {pid : ParamId}
  {fail : EvalError → ε} {enter : ParamId → Except ε (Readings ε)} {fail' : EvalError → ε'}
  {enter' : ParamId → Except ε' (Readings ε')}

theorem Context.read_stable {α : Type} [Inhabited α] {kind : Kind α} (h : a.Extends a')
    (hstatic : ∀ p, params[pid]? = some p → p.isAuto = false) :
    ResultRel.stable α (Context.read ⟨params, a, policy⟩ kind fail enter pid)
      (Context.read ⟨params, a', policy⟩ kind fail' enter' pid) := by
  intro v w hv hvalid hw
  cases hp : params[pid]? with
  | none => simp [read, hp] at hv
  | some p =>
    have hd := Param.domain_of_static (hstatic p hp)
    rw [read_values hp hd] at hv hw
    split at hv
    · cases hv
      cases hvalid
    · rename_i value hchosen
      obtain ⟨vid, hvid, hvalue⟩ := Option.bind_eq_some_iff.1 hchosen
      have hsame : Context.chosen? ⟨params, a', policy⟩ pid p.values = some value :=
        Option.bind_eq_some_iff.2 ⟨vid, h.valueId? hvid, hvalue⟩
      rw [hsame] at hw
      cases hk : kind.ofValue? value with
      | none => simp [hk] at hv
      | some x =>
        simp only [hk] at hv hw
        cases hv
        cases hw
        rfl

theorem Context.readInvalid_stable (h : a.Extends a')
    (hstatic : ∀ p, params[pid]? = some p → p.isAuto = false) :
    ResultRel.stable Bool (Context.readInvalid ⟨params, a, policy⟩ fail enter pid)
      (Context.readInvalid ⟨params, a', policy⟩ fail' enter' pid) := by
  intro v w hv hvalid hw
  cases hp : params[pid]? with
  | none => simp [readInvalid, hp] at hv
  | some p =>
    have hd := Param.domain_of_static (hstatic p hp)
    rw [readInvalid_values hp hd] at hv hw
    cases hget : a.get? pid with
    | none =>
      simp only [hget] at hv
      cases hv
      cases hvalid
    | some slot =>
      rw [hget] at hv
      rw [h pid slot hget] at hw
      cases slot with
      | value vid =>
        cases hv
        cases hw
        rfl
      | invalid =>
        cases hv
        cases hw
        rfl

theorem Context.reading_stable (h : a.Extends a') {u : Use}
    (hstatic : ∀ p, params[u.pid]? = some p → p.isAuto = false) :
    ResultRel.stable.At (Context.reading ⟨params, a, policy⟩) (Context.reading ⟨params, a', policy⟩)
      u := by
  unfold reading
  rw [resolving_eq, resolving_eq]
  cases u with
  | number pid type => exact read_stable h hstatic
  | string pid => exact read_stable h hstatic
  | truth pid => exact read_stable h hstatic
  | validity pid => exact readInvalid_stable h hstatic

end

/-! ## Answers that stay -/

section

variable {params : Params} {policy : Policy} {a a' : Assignment}

/-- What counts for a tree without computed parameters stays when more is assigned. -/
theorem Context.node_stable (h : a.Extends a') {n : Node} (hn : n.IsStatic params)
    {x y : Evaluation} (hx : Context.node ⟨params, a, policy⟩ n = .ok x) (hvalid : x.isValid = true)
    (hy : Context.node ⟨params, a', policy⟩ n = .ok y) : y = x :=
  Node.eval_stable (fun u hu => reading_stable h (hn u hu)) hx hvalid hy

theorem Context.constraint_stable (h : a.Extends a') {c : Constraint}
    (hc : (Node.constraint c).IsStatic params) {b : Bool} {w : Evaluated Bool}
    (hb : Context.constraint ⟨params, a, policy⟩ c = .ok (.valid b))
    (hw : Context.constraint ⟨params, a', policy⟩ c = .ok w) : w = .valid b := by
  have hx : Context.node ⟨params, a, policy⟩ (.constraint c) = .ok (.bool (.valid b)) :=
    map_eq_ok.2 ⟨_, hb, rfl⟩
  have hy : Context.node ⟨params, a', policy⟩ (.constraint c) = .ok (.bool w) :=
    map_eq_ok.2 ⟨_, hw, rfl⟩
  cases Context.node_stable h hc hx rfl hy
  rfl

/-- A violated assignment becomes legal in no way of filling it in. -/
theorem check_violated_stable (h : a.Extends a') {cs : List Constraint}
    (hcs : ∀ c ∈ cs, (Node.constraint c).IsStatic params) {i : Nat}
    (hviolated : check cs params ⟨policy⟩ a = .ok (.violated i)) :
    check cs params ⟨policy⟩ a' ≠ .ok .legal := by
  intro hlegal
  obtain ⟨-, c, hget, hfalse⟩ := Context.check_eq_violated_iff.1 hviolated
  have hmem := List.mem_of_getElem? hget
  have htrue := Context.check_eq_legal_iff.1 hlegal c hmem
  cases Context.constraint_stable h (hcs c hmem) hfalse htrue

/-- A legal assignment stays legal, unless the check of the fuller one fails. -/
theorem check_legal_stable (h : a.Extends a') {cs : List Constraint}
    (hcs : ∀ c ∈ cs, (Node.constraint c).IsStatic params) {v : Verdict}
    (hlegal : check cs params ⟨policy⟩ a = .ok .legal)
    (hv : check cs params ⟨policy⟩ a' = .ok v) : v = .legal := by
  refine Context.check_legal_of_true (fun c hmem w hw => ?_) hv
  have htrue := Context.check_eq_legal_iff.1 hlegal c hmem
  exact Context.constraint_stable h (hcs c hmem) htrue hw

/-- Valid answers stay. Over parameters with a list of values, what counts under a partial
assignment stays when more of it is filled in, so that a search may give up an assignment as soon as
a constraint is violated. -/
theorem answers_stay (params : Params) (policy : Policy) {a a' : Assignment} (h : a.Extends a') :
    (∀ n : Node, n.IsStatic params → ∀ x y : Evaluation,
      Context.node ⟨params, a, policy⟩ n = .ok x → x.isValid = true →
        Context.node ⟨params, a', policy⟩ n = .ok y → y = x) ∧
    ∀ cs : List Constraint, (∀ c ∈ cs, (Node.constraint c).IsStatic params) →
      (∀ i, check cs params ⟨policy⟩ a = .ok (.violated i) →
        check cs params ⟨policy⟩ a' ≠ .ok .legal) ∧
      (∀ v, check cs params ⟨policy⟩ a = .ok .legal → check cs params ⟨policy⟩ a' = .ok v →
        v = .legal) := by
  refine ⟨?_, fun cs hcs => ⟨?_, ?_⟩⟩
  · intro n hn x y hx hvalid hy
    exact Context.node_stable h hn hx hvalid hy
  · intro i hviolated
    exact check_violated_stable h hcs hviolated
  · intro v hlegal hv
    exact check_legal_stable h hcs hlegal hv

/-- A conjunction that one operand has settled stays false, and its negation stays legal. -/
theorem answers_stay_conjunction :
    let params : Params := [.boolean "a", .boolean "b"]
    let c : Constraint := .logic .and (.param 0) (.param 1)
    let a : Assignment := ⟨[some (.value 1)]⟩
    let a' : Assignment := ⟨[some (.value 1), some (.value 0)]⟩
    a.Extends a' ∧
    (∀ y, Context.node ⟨params, a', .deciding⟩ (.constraint c) = .ok y →
      y = .bool (.valid false)) ∧
    check [c] params ⟨.deciding⟩ a' ≠ .ok .legal ∧
    ∀ v, check [.not c] params ⟨.deciding⟩ a' = .ok v → v = .legal := by
  intro params c a a'
  have hextends : a.Extends a' := by
    rintro (_ | pid) slot h
    · exact h
    · simp [a, Assignment.get?] at h
  have hstatic : ∀ n : Node, n.IsStatic params := by
    intro n u _ p hp
    have hmem : p = .boolean "a" ∨ p = .boolean "b" := by
      simpa [params] using List.mem_of_getElem? hp
    rcases hmem with rfl | rfl <;> rfl
  have hfalse : Context.constraint ⟨params, a, .deciding⟩ c = .ok (.valid false) := by
    rw [Context.constraint_eq]
    rfl
  have hnot : Context.constraint ⟨params, a, .deciding⟩ (.not c) = .ok (.valid true) := by
    rw [Context.constraint_eq]
    rfl
  have hnode : Context.node ⟨params, a, .deciding⟩ (.constraint c) = .ok (.bool (.valid false)) :=
    map_eq_ok.2 ⟨_, hfalse, rfl⟩
  have hviolated : check [c] params ⟨.deciding⟩ a = .ok (.violated 0) :=
    Context.check_cons_of_false hfalse
  have hlegal : check [.not c] params ⟨.deciding⟩ a = .ok .legal :=
    Context.check_eq_legal_iff.2 (List.forall_mem_singleton.2 hnot)
  obtain ⟨hnodes, hchecks⟩ := answers_stay params .deciding hextends
  refine ⟨hextends, fun y hy => hnodes _ (hstatic _) _ y hnode rfl hy, ?_, fun v hv => ?_⟩
  · exact (hchecks [c] fun c _ => hstatic (.constraint c)).1 0 hviolated
  · exact (hchecks [.not c] fun c _ => hstatic (.constraint c)).2 v hlegal hv

end

end TWay
