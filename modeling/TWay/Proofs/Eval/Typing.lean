import TWay.Proofs.Eval.Agreement
import TWay.Proofs.Expr.Subtree

/-!
# Static types and what comes out

A number comes out as what the static type says, but for an invalid one, which is always an integer
(`ArithExpr.type_of_eval`). That holds of any tree, also of one whose static types do not fit each
other; in such a tree an integer operation can be handed a double, of which it would only take the
whole part. Where the types are coherent it is not (`Node.Coherent.keepsDoubles`).
-/

namespace TWay

variable {ε : Type} {policy : Policy} {r : Readings ε}

/-! ## The type of a result -/

theorem NumType.join_eq_int {a b : NumType} : a.join b = .int ↔ a = .int ∧ b = .int := by
  cases a <;> cases b <;> simp [join]

theorem Num.type_convert (n : Num) (type : NumType) : (n.convert type).type = type := by
  cases type <;> rfl

theorem Num.type_neg (n : Num) : n.neg.type = n.type := by
  cases n <;> rfl

theorem ArithOp.type_of_result? {op : ArithOp} {type : NumType} {a b n : Num}
    (h : op.result? type a b = some n) : n.type = type := by
  cases type with
  | int =>
    obtain ⟨i, -, rfl⟩ := Option.map_eq_some_iff.1 h
    rfl
  | double =>
    cases h
    rfl

/-- A number of this type, or the integer that stands for an invalid one. -/
def Evaluated.HasType (v : Evaluated Num) (type : NumType) : Prop :=
  v.value.type = type ∨ v.isValid = false ∧ v.value.type = .int

theorem Evaluated.HasType.value_int {v : Evaluated Num} (h : v.HasType .int) :
    v.value.type = .int := by
  rcases h with h | ⟨-, h⟩ <;> exact h

theorem Evaluated.hasType_both (op : ArithOp) (type : NumType) (a b : Evaluated Num) :
    (Evaluated.both (op.result? type) a b).HasType type := by
  unfold both
  split
  · cases h : op.result? type a.value b.value with
    | none => exact .inr ⟨rfl, rfl⟩
    | some n => exact .inl (ArithOp.type_of_result? h)
  · exact .inr ⟨rfl, rfl⟩

/-- A number comes out as what the static type says. -/
theorem ArithExpr.type_of_eval {v : Evaluated Num} :
    ∀ e : ArithExpr, e.eval policy r = .ok v → v.HasType e.type
  | .int _ _, h => by
    cases h
    exact .inl rfl
  | .double _ _, h => by
    cases h
    exact .inl rfl
  | .param pid type, h => by
    rw [ArithExpr.eval] at h
    obtain ⟨n, -, h⟩ := bind_eq_ok.1 h
    cases h
    exact .inl (Num.type_convert _ type)
  | .binary op type lhs rhs, h => by
    rw [ArithExpr.eval] at h
    obtain ⟨a, -, h⟩ := bind_eq_ok.1 h
    obtain ⟨b, -, h⟩ := bind_eq_ok.1 h
    cases h
    exact Evaluated.hasType_both op type a b
  | .neg operand, h => by
    rw [ArithExpr.eval] at h
    obtain ⟨n, hn, h⟩ := bind_eq_ok.1 h
    cases h
    rcases operand.type_of_eval hn with htype | ⟨hinvalid, htype⟩
    · exact .inl ((Num.type_neg n.value).trans htype)
    · exact .inr ⟨hinvalid, (Num.type_neg n.value).trans htype⟩
  | .cast type operand, h => by
    rw [ArithExpr.eval] at h
    obtain ⟨n, -, h⟩ := bind_eq_ok.1 h
    cases h
    exact .inl (Num.type_convert _ type)
  | .truth type operand, h => by
    rw [ArithExpr.eval] at h
    obtain ⟨b, -, h⟩ := bind_eq_ok.1 h
    cases h
    exact .inl (Num.type_convert _ type)

theorem ArithExpr.int_of_eval {e : ArithExpr} {v : Evaluated Num} (htype : e.type = .int)
    (h : e.eval policy r = .ok v) : v.value.type = .int := by
  have hv := e.type_of_eval h
  rw [htype] at hv
  exact hv.value_int

/-! ## Doubles that become integers -/

/-- The numbers that the root of a tree converts to its own type. -/
def ArithExpr.converted (policy : Policy) (r : Readings ε) :
    ArithExpr → List (Except ε (Evaluated Num))
  | .param pid _ => [r.num pid]
  | .binary _ _ lhs rhs => [lhs.eval policy r, rhs.eval policy r]
  | .cast _ operand => [operand.eval policy r]
  | .truth _ operand => [Evaluated.map Num.ofBool <$> operand.eval policy r]
  | .int .. | .double .. | .neg _ => []

/-- The root of the tree turns a double into an integer. -/
def ArithExpr.Narrows (policy : Policy) (r : Readings ε) (e : ArithExpr) : Prop :=
  e.type = .int ∧ ∃ v, .ok v ∈ e.converted policy r ∧ v.value.type = .double

/-- What the root of a tree does to doubles, wherever in the resolution of parameters the tree is
evaluated. -/
structure Node.KeepsDoubles (ctx : Context) (n : Node) : Prop where
  /-- An operation on integers is applied to integers. -/
  operands : ∀ op lhs rhs, n = .arith (.binary op .int lhs rhs) → ∀ busy x y,
    lhs.eval ctx.policy (ctx.resolving busy) = .ok x →
      rhs.eval ctx.policy (ctx.resolving busy) = .ok y → x.value.type = .int ∧ y.value.type = .int
  /-- Only a cast, and the reading of a computed integer, turns a double into an integer. -/
  narrows : ∀ e, n = .arith e → ∀ busy, e.Narrows ctx.policy (ctx.resolving busy) →
    (∃ operand, e = .cast .int operand) ∨
      ∃ pid p, e = .param pid .int ∧ ctx.params[pid]? = some p ∧ p.isAuto = true ∧ p.type = .int

/-- A parameter from a list of integers reads as an integer. -/
theorem Context.int_of_read {ctx : Context} {fail : EvalError → ε}
    {enter : ParamId → Except ε (Readings ε)} {pid : ParamId} {p : Param}
    (hp : ctx.params[pid]? = some p) (hstatic : p.isAuto = false) (htype : p.type = .int)
    (hvalues : ∀ v ∈ p.values, v.value.type = p.type) {v : Evaluated Num}
    (h : ctx.read .number fail enter pid = .ok v) : v.value.type = .int := by
  rw [read_values hp (Param.domain_of_static hstatic)] at h
  split at h
  · cases h
    rfl
  · rename_i value hchosen
    have hint : value.type = .int := (chosen?_type hvalues hchosen).trans htype
    cases value with
    | int i =>
      cases h
      rfl
    | bool | double | string => cases hint

variable {ctx : Context} {n : Node}

/-- An operation whose type is that of its operands has integers to work on if it gives one. -/
theorem Node.Coherent.operands_int {params : Params} {op : ArithOp} {type : NumType}
    {lhs rhs : ArithExpr} (h : Node.Coherent params (.arith (.binary op type lhs rhs)))
    (htype : type = .int) : lhs.type = .int ∧ rhs.type = .int := by
  obtain ⟨hjoin, -⟩ := h
  exact NumType.join_eq_int.1 (hjoin ▸ htype)

/-- Where the static types at the root are coherent, and parameters hold values of their types, the
root turns no double into an integer unless it says so. -/
theorem Node.Coherent.keepsDoubles (h : n.Coherent ctx.params)
    (hvalues : ∀ p ∈ ctx.params, ∀ v ∈ p.values, v.value.type = p.type) : n.KeepsDoubles ctx where
  operands op lhs rhs hn busy x y hx hy := by
    subst hn
    obtain ⟨hl, hr⟩ := h.operands_int rfl
    exact ⟨lhs.int_of_eval hl hx, rhs.int_of_eval hr hy⟩
  narrows e hn busy hnarrows := by
    subst hn
    obtain ⟨htype, v, hmem, hdouble⟩ := hnarrows
    cases e with
    | int | double | neg => cases hmem
    | param pid type =>
      cases htype
      obtain ⟨p, hp, hnum⟩ := h
      have hint : p.type = .int := by
        revert hnum
        cases p.type <;> simp [ParamType.numType?]
      cases hauto : p.isAuto with
      | true => exact .inr ⟨pid, p, rfl, hp, hauto, hint⟩
      | false =>
        have hread := List.mem_singleton.1 hmem
        rw [Context.resolving_eq] at hread
        have htyped := hvalues p (List.mem_of_getElem? hp)
        have hv := Context.int_of_read hp hauto hint htyped hread.symm
        rw [hv] at hdouble
        cases hdouble
    | binary op type lhs rhs =>
      obtain ⟨hl, hr⟩ := h.operands_int htype
      have hv : v.value.type = .int := by
        rcases List.mem_cons.1 hmem with hv | hmem
        · exact lhs.int_of_eval hl hv.symm
        · exact rhs.int_of_eval hr (List.mem_singleton.1 hmem).symm
      rw [hv] at hdouble
      cases hdouble
    | cast type operand =>
      cases htype
      exact .inl ⟨operand, rfl⟩
    | truth type operand =>
      obtain ⟨b, -, rfl⟩ := map_eq_ok.1 (List.mem_singleton.1 hmem).symm
      cases hdouble

end TWay
