import TWay.Build.Tree
import TWay.Proofs.Eval.Typing

/-!
# Comparing integers

Whether a precision applies to a comparison is decided twice: from the static types of the operands
when the relation is built, and from the numbers that come out when it is evaluated. The two agree,
since a number that counts is an integer exactly if the static type says so
(`Context.int_iff_type`). So a relation between integers is their exact comparison, whatever its
precision is, and it makes no difference which one was stored (`ints_compare_exactly`).
-/

namespace TWay

/-! ## Integers side by side -/

/-- The comparison of two whole numbers that the operator stands for. -/
def RelOp.Compares : RelOp → Int → Int → Prop
  | .eq, a, b => a = b
  | .ne, a, b => a ≠ b
  | .gt, a, b => b < a
  | .ge, a, b => b ≤ a
  | .lt, a, b => a < b
  | .le, a, b => a ≤ b

instance (op : RelOp) (a b : Int) : Decidable (op.Compares a b) :=
  match op with
  | .eq => inferInstanceAs (Decidable (a = b))
  | .ne => inferInstanceAs (Decidable (a ≠ b))
  | .gt => inferInstanceAs (Decidable (b < a))
  | .ge => inferInstanceAs (Decidable (b ≤ a))
  | .lt => inferInstanceAs (Decidable (a < b))
  | .le => inferInstanceAs (Decidable (a ≤ b))

theorem RelOp.onInts_eq (op : RelOp) (a b : Int64) :
    op.onInts a b = decide (op.Compares a.toInt b.toInt) := by
  cases op with
  | eq => exact decide_eq_decide.2 Int64.toInt_inj.symm
  | ne => exact decide_eq_decide.2 (not_congr Int64.toInt_inj.symm)
  | gt => exact decide_eq_decide.2 Int64.lt_iff_toInt_lt
  | ge => exact decide_eq_decide.2 Int64.le_iff_toInt_le
  | lt => exact decide_eq_decide.2 Int64.lt_iff_toInt_lt
  | le => exact decide_eq_decide.2 Int64.le_iff_toInt_le

theorem Num.type_eq_int {n : Num} : n.type = .int ↔ ∃ i, n = .int i := by
  cases n <;> simp [type]

/-- Between integers the precision is not looked at. -/
theorem RelOp.holds_of_ints (op : RelOp) (precision : Float) {a b : Num} (ha : a.type = .int)
    (hb : b.type = .int) :
    op.holds precision a b = decide (op.Compares a.toInt.toInt b.toInt.toInt) := by
  obtain ⟨i, rfl⟩ := Num.type_eq_int.1 ha
  obtain ⟨j, rfl⟩ := Num.type_eq_int.1 hb
  exact op.onInts_eq i j

/-! ## Relations -/

/-- The comparison of two integers that may be invalid. -/
def RelOp.compared (op : RelOp) (a b : Evaluated Int64) : Evaluated Bool :=
  if a.isValid ∧ b.isValid then .valid (decide (op.Compares a.value.toInt b.value.toInt))
  else .invalid

namespace Context

variable {ctx : Context} {op : RelOp} {lhs rhs : ArithExpr}

/-- A number that counts is an integer if the static type says so, and only then. -/
theorem int_iff_type {e : ArithExpr} {v : Evaluated Num} (h : ctx.num e = .ok v)
    (hvalid : v.isValid = true) : (∃ i, v.value = .int i) ↔ e.type = .int := by
  rw [← Num.type_eq_int]
  rcases e.type_of_eval h with htype | ⟨hinvalid, -⟩
  · rw [htype]
  · rw [hvalid] at hinvalid
    cases hinvalid

/-- A relation between integers is their comparison, and fails where one of them does. -/
theorem constraint_of_ints (hl : lhs.type = .int) (hr : rhs.type = .int) (precision : Float) :
    ctx.constraint (.arith op lhs rhs precision) = (do
      let a ← ctx.int lhs
      let b ← ctx.int rhs
      return op.compared a b) := by
  rw [constraint, Constraint.eval]
  unfold int num
  cases hx : lhs.eval ctx.policy ctx.reading with
  | error e => rfl
  | ok x =>
    cases hy : rhs.eval ctx.policy ctx.reading with
    | error e => rfl
    | ok y =>
      have hholds := op.holds_of_ints precision (lhs.int_of_eval hl hx) (rhs.int_of_eval hr hy)
      simp only [ok_bind, map_ok, Evaluated.both, RelOp.compared, Evaluated.map, hholds,
        Evaluated.ofOption, Bool.and_eq_true]

end Context

/-- A relation between integers is built with the default precision. One in the token is not used,
for which there is a warning. -/
theorem Build.relation_of_ints {L : Type} [Logger L] {op : RelOp} {lhs rhs : ArithExpr}
    (hl : lhs.type = .int) (hr : rhs.type = .int) {operator : Operator}
    (hop : operator.relational? = some op) (default : Float) (token : String) :
    (Build.relation default operator (some (.arith lhs)) (some (.arith rhs)) token :
      Attempt L _ _) = (do
        Build.neglectPrecision (tokenPrecision? token) "integer"
        return .arith op lhs rhs default) := by
  have hoperands (α : Type) (x y : α) :
      (operands (some x) (some y) : Attempt L _ _) = .ok (x, y) := rfl
  have hstored : (arithConstraint operator (some lhs) (some rhs) default : Attempt L _ _) =
      .ok (.arith op lhs rhs default) := by
    rw [arithConstraint, hoperands, hop]
    rfl
  rw [relation, hoperands]
  show (if lhs.type = .int ∧ rhs.type = .int then _ else _) = _
  rw [if_pos ⟨hl, hr⟩, hstored]
  rfl

/-- Integers compare exactly. A number that counts is an integer if its expression has the type of
integers, and only then. So a relation between two expressions of that type comes to the same with
every precision; it counts where both operands do, and then is their comparison as whole numbers.
The default precision, with which it is built after a warning, therefore makes no difference. -/
theorem ints_compare_exactly {L : Type} [Logger L] (ctx : Context) :
    (∀ e v, ctx.num e = .ok v → v.isValid = true → ((∃ i, v.value = .int i) ↔ e.type = .int)) ∧
    ∀ (op : RelOp) (lhs rhs : ArithExpr), lhs.type = .int → rhs.type = .int →
      (∀ precision precision', ctx.constraint (.arith op lhs rhs precision) =
        ctx.constraint (.arith op lhs rhs precision')) ∧
      (∀ precision v, ctx.constraint (.arith op lhs rhs precision) = .ok v ↔
        ∃ a b, ctx.int lhs = .ok a ∧ ctx.int rhs = .ok b ∧ op.compared a b = v) ∧
      ∀ operator default token, operator.relational? = some op →
        (Build.relation default operator (some (.arith lhs)) (some (.arith rhs)) token :
          Attempt L _ _) = (do
            Build.neglectPrecision (tokenPrecision? token) "integer"
            return .arith op lhs rhs default) := by
  refine ⟨fun e v => Context.int_iff_type, fun op lhs rhs hl hr => ⟨?_, ?_, ?_⟩⟩
  · intro precision precision'
    rw [Context.constraint_of_ints hl hr, Context.constraint_of_ints hl hr]
  · intro precision v
    rw [Context.constraint_of_ints hl hr]
    simp only [bind_eq_ok, pure_eq_ok, exists_and_left]
  · intro operator default token hop
    exact Build.relation_of_ints hl hr hop default token

/-- A difference of integers and a quotient by zero. -/
theorem ints_compare_exactly_difference :
    let ctx : Context :=
      ⟨[⟨"a", .int, .values [⟨"3", .int 3⟩, ⟨"7", .int 7⟩], false⟩], ⟨[some (.value 1)]⟩, .deciding⟩
    let lhs : ArithExpr := .binary .sub .int (.param 0 .int) (.int 1 "1")
    let rhs : ArithExpr := .binary .div .int lhs (.int 0 "0")
    lhs.type = .int ∧
      (∀ precision, ctx.constraint (.arith .eq lhs (.int 6 "6") precision) = .ok (.valid true)) ∧
      (∀ precision, ctx.constraint (.arith .eq lhs rhs precision) = .ok .invalid) ∧
      ∀ default, (Build.relation default .eq (some (.arith lhs)) (some (.arith rhs)) "==[0.5]" :
        Attempt MessageLog _ _) = (do
          Build.neglectPrecision (tokenPrecision? "==[0.5]") "integer"
          return .arith .eq lhs rhs default) := by
  intro ctx lhs rhs
  have hlhs : ctx.num lhs = .ok (.valid (.int 6)) := by
    rw [Context.num, Context.reading_eq]
    rfl
  have hdifference : ctx.int lhs = .ok (.valid 6) := by
    rw [Context.int, hlhs]
    rfl
  have hquotient : ctx.int rhs = .ok .invalid := by
    rw [Context.int, Context.num, Context.reading_eq]
    rfl
  obtain ⟨htypes, hrelations⟩ := ints_compare_exactly (L := MessageLog) ctx
  obtain ⟨-, hequal, -⟩ := hrelations .eq lhs (.int 6 "6") rfl rfl
  obtain ⟨-, hopen, hbuilt⟩ := hrelations .eq lhs rhs rfl rfl
  refine ⟨(htypes lhs _ hlhs rfl).1 ⟨6, rfl⟩, fun precision => ?_, fun precision => ?_,
    fun default => hbuilt .eq default "==[0.5]" rfl⟩
  · exact (hequal precision _).2 ⟨_, .valid 6, hdifference, rfl, by decide⟩
  · exact (hopen precision _).2 ⟨_, _, hdifference, hquotient, by decide⟩

end TWay
