import TWay.Proofs.Assembled
import TWay.Proofs.Build.Attempt

/-!
# Building keeps trees assembled

Whatever the builders of trees give for assembled operands is assembled. There is one lemma for each
of them.
-/

namespace TWay

namespace Node

theorem expectArith_eq_ok {n : Node} {e : ArithExpr} :
    n.expectArith.result = .ok e ↔ n = .arith e := by
  cases n <;> simp [expectArith]

theorem expectString_eq_ok {n : Node} {e : StrExpr} :
    n.expectString.result = .ok e ↔ n = .string e := by
  cases n <;> simp [expectString]

theorem expectConstraint_eq_ok {n : Node} {c : Constraint} :
    n.expectConstraint.result = .ok c ↔ n = .constraint c := by
  cases n <;> simp [expectConstraint]

end Node

namespace Build

variable {α : Type}

theorem operand_eq_ok {a : Option α} {x : α} : (operand a).result = .ok x ↔ a = some x := by
  cases a <;> simp [operand]

theorem operands_eq_ok {lhs rhs : Option α} {x y : α} :
    (operands lhs rhs).result = .ok (x, y) ↔ lhs = some x ∧ rhs = some y := by
  simp only [operands, Attempt.bind_eq_ok, Attempt.pure_eq_ok, operand_eq_ok, Prod.mk.injEq]
  constructor
  · rintro ⟨l, rfl, r, rfl, rfl, rfl⟩
    exact ⟨rfl, rfl⟩
  · rintro ⟨rfl, rfl⟩
    exact ⟨x, rfl, y, rfl, rfl, rfl⟩

/-- The terms of a list of strings, one by one. -/
theorem mapM_expectString_eq_ok {terms : List Node} {es : List StrExpr}
    (h : (terms.mapM Node.expectString).result = .ok es) : terms = es.map .string := by
  induction terms generalizing es with
  | nil =>
    cases h
    rfl
  | cons term terms ih =>
    rw [List.mapM_cons] at h
    obtain ⟨e, he, h⟩ := Attempt.bind_eq_ok.1 h
    obtain ⟨rest, hrest, h⟩ := Attempt.bind_eq_ok.1 h
    cases Attempt.pure_eq_ok.1 h
    rw [Node.expectString_eq_ok.1 he, ih hrest]
    rfl

variable {params : Params} {op : Operator} {lhs rhs a : Option Node} {n : Node} {c : Constraint}

theorem boolLiteral_assembled {text : String} (h : (boolLiteral text).result = .ok c) :
    Assembled params (.constraint c) := by
  unfold boolLiteral at h
  split at h <;> cases h <;> exact .literal rfl

theorem arith_assembled (hl : ∀ m ∈ lhs, Assembled params m) (hr : ∀ m ∈ rhs, Assembled params m)
    (h : (arith op lhs rhs).result = .ok n) : Assembled params n := by
  simp only [arith, Attempt.bind_eq_ok, Prod.exists, operands_eq_ok, Node.expectArith_eq_ok] at h
  obtain ⟨x, y, ⟨rfl, rfl⟩, l, rfl, r, rfl, arithOp, -, h⟩ := h
  split at h
  · cases h
  · rename_i hmod
    cases Attempt.pure_eq_ok.1 h
    exact .binary (hl _ rfl) (hr _ rfl) fun hop =>
      Decidable.not_not.1 fun hne => hmod ⟨hop, hne⟩

theorem unaryArith_assembled (ha : ∀ m ∈ a, Assembled params m)
    (h : (unaryArith op a).result = .ok n) : Assembled params n := by
  simp only [unaryArith, Attempt.bind_eq_ok, operand_eq_ok, Node.expectArith_eq_ok] at h
  obtain ⟨x, rfl, e, rfl, h⟩ := h
  split at h
  · cases Attempt.pure_eq_ok.1 h
    exact .neg (ha _ rfl)
  · cases Attempt.pure_eq_ok.1 h
    exact ha _ rfl
  · cases h

theorem cast_assembled {target : String} (ha : ∀ m ∈ a, Assembled params m)
    (h : (cast a target).result = .ok n) : Assembled params n := by
  simp only [cast, Attempt.bind_eq_ok, operand_eq_ok] at h
  obtain ⟨x, rfl, h⟩ := h
  split at h
  · cases h
  · obtain ⟨type, -, h⟩ := Attempt.bind_eq_ok.1 h
    cases Attempt.pure_eq_ok.1 h
    exact .cast (ha _ rfl)
  · obtain ⟨type, -, h⟩ := Attempt.bind_eq_ok.1 h
    cases Attempt.pure_eq_ok.1 h
    exact .truth (ha _ rfl)

theorem concat_assembled {terms : List Node} (ht : ∀ m ∈ terms, Assembled params m)
    (h : (concat terms).result = .ok n) : Assembled params n := by
  unfold concat at h
  split at h
  · cases h
  · obtain ⟨es, hes, h⟩ := Attempt.bind_eq_ok.1 h
    rw [mapM_expectString_eq_ok hes, List.forall_mem_map] at ht
    split at h
    · cases Attempt.pure_eq_ok.1 h
      exact ht _ (List.mem_singleton.2 rfl)
    · cases Attempt.pure_eq_ok.1 h
      exact .concat ht

theorem arithConstraint_assembled {lhs rhs : Option ArithExpr} {precision : Float}
    (hl : ∀ e ∈ lhs, Assembled params (.arith e)) (hr : ∀ e ∈ rhs, Assembled params (.arith e))
    (h : (arithConstraint op lhs rhs precision).result = .ok c) :
    Assembled params (.constraint c) := by
  simp only [arithConstraint, Attempt.bind_eq_ok, Prod.exists, operands_eq_ok,
    Attempt.pure_eq_ok] at h
  obtain ⟨l, r, ⟨rfl, rfl⟩, relOp, -, rfl⟩ := h
  exact .relation (hl _ rfl) (hr _ rfl)

theorem stringConstraint_assembled {lhs rhs : Option StrExpr}
    (hl : ∀ e ∈ lhs, Assembled params (.string e)) (hr : ∀ e ∈ rhs, Assembled params (.string e))
    (h : (stringConstraint op lhs rhs).result = .ok c) : Assembled params (.constraint c) := by
  simp only [stringConstraint, Attempt.bind_eq_ok, Prod.exists, operands_eq_ok,
    Attempt.pure_eq_ok] at h
  obtain ⟨l, r, ⟨rfl, rfl⟩, strOp, -, rfl⟩ := h
  exact .strings (hl _ rfl) (hr _ rfl)

theorem logical_assembled (hl : ∀ m ∈ lhs, Assembled params m)
    (hr : ∀ m ∈ rhs, Assembled params m) (h : (logical op lhs rhs).result = .ok c) :
    Assembled params (.constraint c) := by
  simp only [logical, Attempt.bind_eq_ok, Prod.exists, operands_eq_ok, Node.expectConstraint_eq_ok,
    Attempt.pure_eq_ok] at h
  obtain ⟨x, y, ⟨rfl, rfl⟩, l, rfl, r, rfl, logicOp, -, rfl⟩ := h
  exact .logic (hl _ rfl) (hr _ rfl)

theorem unaryLogical_assembled (ha : ∀ m ∈ a, Assembled params m)
    (h : (unaryLogical op a).result = .ok c) : Assembled params (.constraint c) := by
  simp only [unaryLogical, Attempt.bind_eq_ok, operand_eq_ok, Node.expectConstraint_eq_ok] at h
  obtain ⟨x, rfl, e, rfl, h⟩ := h
  split at h
  · cases Attempt.pure_eq_ok.1 h
    exact .not (ha _ rfl)
  · cases h

/-- A precision that does not apply is worth a warning and changes nothing. -/
theorem neglectPrecision_result_bind {β : Type} (explicit : Option Float) (kind : String)
    (f : Unit → Attempt Empty BuildError β) :
    (neglectPrecision explicit kind >>= f).result = (f ()).result := by
  rw [Attempt.result_bind, neglectPrecision]
  split <;> rfl

/-- A relation is one of the three comparisons, between the two operands it is given. -/
theorem relation_assembled {default : Float} {token : String} (hl : ∀ m ∈ lhs, Assembled params m)
    (hr : ∀ m ∈ rhs, Assembled params m) (h : (relation default op lhs rhs token).result = .ok c) :
    Assembled params (.constraint c) := by
  simp only [relation, Attempt.bind_eq_ok, Prod.exists, operands_eq_ok] at h
  obtain ⟨x, y, ⟨rfl, rfl⟩, h⟩ := h
  have hx := hl x rfl
  have hy := hr y rfl
  split at h
  · split at h
    · rw [neglectPrecision_result_bind] at h
      exact arithConstraint_assembled (fun _ he => Option.some.inj he ▸ hx)
        (fun _ he => Option.some.inj he ▸ hy) h
    · exact arithConstraint_assembled (fun _ he => Option.some.inj he ▸ hx)
        (fun _ he => Option.some.inj he ▸ hy) h
  · rw [neglectPrecision_result_bind] at h
    exact stringConstraint_assembled (fun _ he => Option.some.inj he ▸ hx)
      (fun _ he => Option.some.inj he ▸ hy) h
  · rw [neglectPrecision_result_bind] at h
    exact logical_assembled hl hr h
  · cases h

end Build

end TWay
