import TWay.Eval.Policy

/-!
# Connectives taken apart

What is known of the operands of a connective from its result. A disjunction is true because of one
operand and false because of both, whatever an invalid operand does; a connective with an invalid
operand has a valid result only where the other one settles it. So a disjunction of several is told
by what is among its operands (`Policy.any_eq_true`, `Policy.any_eq_false`), and not by their order.
-/

namespace TWay

namespace Evaluated

/-- A truth value is true, false, or does not count. -/
theorem truth_cases (a : Evaluated Bool) :
    a = .valid true ∨ a = .valid false ∨ a.isValid = false := by
  obtain ⟨value, isValid⟩ := a
  cases isValid <;> cases value <;> simp [valid]

theorem isValid_both {α β γ : Type} [Inhabited γ] {f : α → β → Option γ}
    {a : Evaluated α} {b : Evaluated β} (h : (both f a b).isValid = true) :
    a.isValid = true ∧ b.isValid = true := by
  unfold both at h
  split at h
  · rename_i hvalid
    rwa [Bool.and_eq_true] at hvalid
  · cases h

/-- What is computed from two values does not count if one of them does not, or if there is nothing
to compute. -/
theorem isValid_both_eq_false {α β γ : Type} [Inhabited γ] {f : α → β → Option γ}
    {a : Evaluated α} {b : Evaluated β} :
    (both f a b).isValid = false ↔
      a.isValid = false ∨ b.isValid = false ∨ f a.value b.value = none := by
  obtain ⟨x, va⟩ := a
  obtain ⟨y, vb⟩ := b
  cases va <;> cases vb <;> cases h : f x y <;> simp [both, h, ofOption, valid, invalid]

/-- What is computed from two valid values is valid if there is something to compute. -/
theorem isValid_both_of_some {α β γ : Type} [Inhabited γ] {f : α → β → Option γ}
    {a : Evaluated α} {b : Evaluated β} (ha : a.isValid = true) (hb : b.isValid = true) {c : γ}
    (hf : f a.value b.value = some c) : (both f a b).isValid = true := by
  simp [both, ha, hb, hf, ofOption, valid]

end Evaluated

namespace Policy

variable {policy : Policy} {op : LogicOp} {a b a' b' : Evaluated Bool}

theorem or_eq_true :
    policy.or a b = .valid true ↔
      (a = .valid true ∨ b = .valid true) ∧
        (policy = .absorbing → a.isValid = true ∧ b.isValid = true) := by
  obtain ⟨x, va⟩ := a
  obtain ⟨y, vb⟩ := b
  cases policy <;> cases va <;> cases x <;> cases vb <;> cases y <;>
    simp [or, settle, plain, Evaluated.decides, Evaluated.valid]

theorem or_eq_false :
    policy.or a b = .valid false ↔ a = .valid false ∧ b = .valid false := by
  obtain ⟨x, va⟩ := a
  obtain ⟨y, vb⟩ := b
  cases policy <;> cases va <;> cases x <;> cases vb <;> cases y <;>
    simp [or, settle, plain, Evaluated.decides, Evaluated.valid]

/-- An equivalence needs both operands. -/
theorem iff_eq_true (h : policy.logic .iff a b = .valid true) :
    ∃ t, a = .valid t ∧ b = .valid t := by
  obtain ⟨x, va⟩ := a
  obtain ⟨y, vb⟩ := b
  cases va <;> cases vb <;> simp_all [logic, plain, Evaluated.valid]

/-- Over valid operands a connective has a valid result. -/
theorem isValid_logic (ha : a.isValid = true) (hb : b.isValid = true) :
    (policy.logic op a b).isValid = true := by
  obtain ⟨x, _⟩ := a
  obtain ⟨y, _⟩ := b
  cases ha
  cases hb
  cases policy <;> cases op <;> cases x <;> cases y <;> rfl

/-- Over valid operands the policies agree. -/
theorem logic_of_valid (policy' : Policy) (ha : a.isValid = true) (hb : b.isValid = true) :
    policy'.logic op a b = policy.logic op a b := by
  obtain ⟨x, _⟩ := a
  obtain ⟨y, _⟩ := b
  cases ha
  cases hb
  cases policy <;> cases policy' <;> cases op <;> cases x <;> cases y <;> rfl

/-- Over an invalid left operand, a valid result is settled by the right one. -/
theorem logic_of_invalid_left (ha : a.isValid = false)
    (h : (policy.logic op a b).isValid = true) (a' : Evaluated Bool) :
    policy.logic op a' b = policy.logic op a b := by
  obtain ⟨x, _⟩ := a
  cases ha
  obtain ⟨y, isValid⟩ := b
  cases policy <;> cases op <;> cases isValid <;> cases y <;>
    simp_all [logic, and, or, imply, settle, plain, Evaluated.decides]

/-- Over an invalid right operand, a valid result is settled by the left one. -/
theorem logic_of_invalid_right (hb : b.isValid = false)
    (h : (policy.logic op a b).isValid = true) (b' : Evaluated Bool) :
    policy.logic op a b' = policy.logic op a b := by
  obtain ⟨y, _⟩ := b
  cases hb
  obtain ⟨x, isValid⟩ := a
  cases policy <;> cases op <;> cases isValid <;> cases x <;>
    simp_all [logic, and, or, imply, settle, plain, Evaluated.decides]

/-- Under the absorbing policy a valid result takes both operands. -/
theorem isValid_absorbing (op : LogicOp) :
    (absorbing.logic op a b).isValid = true ↔ a.isValid = true ∧ b.isValid = true := by
  cases op <;> simp [logic, and, or, imply, settle, plain]

/-- A valid result under the absorbing policy is the one under the deciding policy, whatever becomes
of operands that are not valid. -/
theorem deciding_of_absorbing (ha : a.isValid = true → a' = a) (hb : b.isValid = true → b' = b)
    (h : (absorbing.logic op a b).isValid = true) :
    deciding.logic op a' b' = absorbing.logic op a b := by
  obtain ⟨hva, hvb⟩ := (isValid_absorbing op).1 h
  rw [ha hva, hb hvb]
  exact logic_of_valid deciding hva hvb

/-- A valid result stays when valid operands do, whatever becomes of the others. -/
theorem logic_stable (ha : a.isValid = true → a' = a) (hb : b.isValid = true → b' = b)
    (h : (policy.logic op a b).isValid = true) : policy.logic op a' b' = policy.logic op a b := by
  cases hva : a.isValid with
  | true =>
    rw [ha hva]
    cases hvb : b.isValid with
    | true => rw [hb hvb]
    | false => exact logic_of_invalid_right hvb h b'
  | false =>
    have hleft := logic_of_invalid_left hva h
    cases hvb : b.isValid with
    | true => rw [hb hvb, hleft a']
    | false =>
      rw [← hleft a'] at h ⊢
      exact logic_of_invalid_right hvb h b'

/-! ## Several operands -/

/-- The disjunction of several values that may be invalid, false if there is none. -/
def any (policy : Policy) (vs : List (Evaluated Bool)) : Evaluated Bool :=
  vs.foldl policy.or (.valid false)

theorem false_or (policy : Policy) (a : Evaluated Bool) : policy.or (.valid false) a = a := by
  obtain ⟨x, va⟩ := a
  cases policy <;> cases va <;> cases x <;> rfl

theorem or_right_comm (policy : Policy) (a b c : Evaluated Bool) :
    policy.or (policy.or a b) c = policy.or (policy.or a c) b := by
  obtain ⟨x, va⟩ := a
  obtain ⟨y, vb⟩ := b
  obtain ⟨z, vc⟩ := c
  cases policy <;> cases va <;> cases x <;> cases vb <;> cases y <;> cases vc <;> cases z <;> rfl

/-- From the first operand on, which is not told apart from the others. -/
theorem foldl_or_eq_true {vs : List (Evaluated Bool)} :
    vs.foldl policy.or a = .valid true ↔
      .valid true ∈ a :: vs ∧ (policy = .absorbing → ∀ v ∈ a :: vs, v.isValid = true) := by
  induction vs generalizing a with
  | nil =>
    rw [List.foldl_nil, List.mem_singleton, List.forall_mem_singleton]
    constructor
    · rintro rfl
      exact ⟨rfl, fun _ => rfl⟩
    · exact fun h => h.1.symm
  | cons v vs ih =>
    rw [List.foldl_cons, ih, List.mem_cons, eq_comm, or_eq_true, List.mem_cons, List.mem_cons,
      eq_comm (b := a), eq_comm (b := v), ← or_assoc]
    simp only [List.forall_mem_cons]
    cases policy with
    | deciding => simp
    | absorbing =>
      have hor : (absorbing.or a v).isValid = true ↔ a.isValid = true ∧ v.isValid = true :=
        isValid_absorbing .or
      simp only [hor, forall_const, and_assoc (c := ∀ v ∈ vs, v.isValid = true)]
      exact and_congr_left fun hvalid => by rw [and_iff_left ⟨hvalid.1, hvalid.2.1⟩]

theorem foldl_or_eq_false {vs : List (Evaluated Bool)} :
    vs.foldl policy.or a = .valid false ↔ ∀ v ∈ a :: vs, v = .valid false := by
  induction vs generalizing a with
  | nil => rw [List.foldl_nil, List.forall_mem_singleton]
  | cons v vs ih =>
    rw [List.foldl_cons, ih, List.forall_mem_cons, List.forall_mem_cons, List.forall_mem_cons,
      or_eq_false, and_assoc]

theorem any_cons (policy : Policy) (v : Evaluated Bool) (vs : List (Evaluated Bool)) :
    policy.any (v :: vs) = vs.foldl policy.or v := by
  rw [any, List.foldl_cons, false_or]

/-- Several are true because of one of them; if invalid operands absorb, there must be none. -/
theorem any_eq_true {vs : List (Evaluated Bool)} :
    policy.any vs = .valid true ↔
      .valid true ∈ vs ∧ (policy = .absorbing → ∀ v ∈ vs, v.isValid = true) := by
  rw [any, foldl_or_eq_true]
  simp [Evaluated.valid]

/-- Several are false because of all of them. -/
theorem any_eq_false {vs : List (Evaluated Bool)} :
    policy.any vs = .valid false ↔ ∀ v ∈ vs, v = .valid false := by
  rw [any, foldl_or_eq_false, List.forall_mem_cons]
  exact and_iff_right rfl

theorem any_perm {vs vs' : List (Evaluated Bool)} (h : vs.Perm vs') :
    policy.any vs = policy.any vs' :=
  h.foldl_eq' (fun a _ b _ c => or_right_comm policy c a b) _

end Policy

end TWay
