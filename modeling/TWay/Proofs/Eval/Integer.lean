import TWay.Proofs.Eval.Policy
import TWay.Proofs.Eval.Reading
import TWay.Proofs.Expr.Subtree
import TWay.Proofs.Expr.Uses
import TWay.Proofs.Number

/-!
# Integer arithmetic

A tree of integers and of parameters with integers to choose from comes to an integer that does not
count exactly if one of the parameters has no value or something is divided by zero
(`Context.isValid_eq_false_iff`). One that counts is congruent to the exact value of the tree
(`Context.int_modEq`), since each operation keeps that, so that it is the exact value wrapped around
once, however often a result within the tree has been (`int_arithmetic_is_modular`).
-/

namespace TWay

/-- Arithmetic on integers: literals, parameters with a list of integers to choose from, and the
operations of the type of integers on such expressions. -/
inductive ArithExpr.Integral (params : Params) : ArithExpr → Prop
  | int (value : Int64) (text : String) : Integral params (.int value text)
  | param {pid : ParamId} {p : Param} : params[pid]? = some p → p.isAuto = false →
      (∀ v ∈ p.values, v.value.type = .int) → Integral params (.param pid .int)
  | neg {operand : ArithExpr} : Integral params operand → Integral params (.neg operand)
  | binary (op : ArithOp) {lhs rhs : ArithExpr} : Integral params lhs → Integral params rhs →
      Integral params (.binary op .int lhs rhs)

/-- The value of the tree over the whole numbers, given those that are chosen. There is none with a
quotient or a remainder in the tree, and none without a choice. -/
def ArithExpr.wholeValue? (chosen? : ParamId → Option Int64) : ArithExpr → Option Int
  | .int value _ => some value.toInt
  | .param pid _ => (chosen? pid).map Int64.toInt
  | .neg operand => (operand.wholeValue? chosen?).map fun x => -x
  | .binary op _ lhs rhs => do op.onWhole? (← lhs.wholeValue? chosen?) (← rhs.wholeValue? chosen?)
  | .double .. | .cast .. | .truth .. => none

namespace Context

/-- The integer that the assignment chooses for a parameter. -/
def chosenInt? (ctx : Context) (pid : ParamId) : Option Int64 :=
  match (ctx.params[pid]?).bind fun p => ctx.chosen? pid p.values with
  | some (.int i) => some i
  | _ => none

/-- The assignment has no value for a parameter: no slot, or one that leaves it invalid. -/
def Unresolved (ctx : Context) (pid : ParamId) : Prop :=
  ctx.assignment.get? pid = none ∨ ∃ p slot, ctx.params[pid]? = some p ∧
    ctx.assignment.get? pid = some slot ∧ slot.LeavesInvalid p.values.length

/-- Somewhere in a tree the divisor of a quotient or a remainder comes to zero. -/
def DividesByZero (ctx : Context) (n : Node) : Prop :=
  ∃ op type lhs rhs, n.Contains (.arith (.binary op type lhs rhs)) ∧ op.Divides ∧
    ctx.int rhs = .ok (.valid 0)

variable {ctx : Context} {pid : ParamId} {p : Param} {e lhs rhs : ArithExpr} {op : ArithOp}
  {v a b : Evaluated Int64}

/-! ## Parameters -/

theorem chosen?_eq_none_iff (hp : ctx.params[pid]? = some p) :
    ctx.chosen? pid p.values = none ↔ ctx.Unresolved pid := by
  cases hget : ctx.assignment.get? pid with
  | none => simp [chosen?, Assignment.valueId?, Unresolved, hget]
  | some slot =>
    cases slot with
    | invalid => simp [chosen?, Assignment.valueId?, Unresolved, hget, hp, Slot.LeavesInvalid]
    | value vid => simp [chosen?, Assignment.valueId?, Unresolved, hget, hp, Slot.LeavesInvalid]

/-- A parameter reads as the integer that is chosen for it. -/
theorem num_param (hp : ctx.params[pid]? = some p) (hstatic : p.isAuto = false)
    (hvalues : ∀ v ∈ p.values, v.value.type = .int) :
    ctx.num (.param pid .int) = .ok ((Evaluated.ofOption (ctx.chosenInt? pid)).map .int) ∧
      (ctx.chosenInt? pid = none ↔ ctx.Unresolved pid) := by
  rw [← chosen?_eq_none_iff hp]
  have hread : ctx.num (.param pid .int) = (do
      let n ← ctx.read .number id (ctx.entering []) pid
      return n.map fun n => n.convert .int) := by
    rw [num, reading_eq, ArithExpr.eval]
    rfl
  rw [hread, read_values hp (Param.domain_of_static hstatic)]
  unfold chosenInt?
  rw [hp, Option.bind_some]
  cases hchosen : ctx.chosen? pid p.values with
  | none => exact ⟨rfl, by simp⟩
  | some value =>
    obtain ⟨vid, -, hmap⟩ := Option.bind_eq_some_iff.1 hchosen
    obtain ⟨v, hv, rfl⟩ := Option.map_eq_some_iff.1 hmap
    have htype := hvalues v (List.mem_of_getElem? hv)
    cases hvalue : v.value with
    | int i => exact ⟨rfl, by simp⟩
    | bool | double | string =>
      rw [hvalue] at htype
      cases htype

/-! ## Trees -/

theorem int_of_num (h : ctx.num e = .ok (v.map .int)) : ctx.int e = .ok v := by
  rw [int, h]
  rfl

theorem num_neg (h : ctx.num e = .ok (v.map .int)) :
    ctx.num (.neg e) = .ok ((v.map fun i => -i).map .int) := by
  have hneg : ctx.num (.neg e) = Evaluated.map Num.neg <$> ctx.num e := by
    rw [num, ArithExpr.eval, ← num]
    cases ctx.num e <;> rfl
  rw [hneg, h]
  rfl

/-- An operation of the type of integers takes both operands as integers. -/
theorem num_binary {x y : Evaluated Num} (hx : ctx.num lhs = .ok x) (hy : ctx.num rhs = .ok y) :
    ctx.num (.binary op .int lhs rhs) =
      .ok ((Evaluated.both op.onInts? (x.map Num.toInt) (y.map Num.toInt)).map .int) := by
  have hboth : Evaluated.both (op.result? .int) x y =
      (Evaluated.both op.onInts? (x.map Num.toInt) (y.map Num.toInt)).map .int := by
    obtain ⟨m, vx⟩ := x
    obtain ⟨n, vy⟩ := y
    cases vx <;> cases vy <;> try rfl
    show Evaluated.ofOption ((op.onInts? m.toInt n.toInt).map Num.int) =
      (Evaluated.ofOption (op.onInts? m.toInt n.toInt)).map Num.int
    cases op.onInts? m.toInt n.toInt <;> rfl
  rw [← hboth, num, ArithExpr.eval, ← num, ← num, hx, hy]
  rfl

theorem int_binary (ha : ctx.int lhs = .ok a) (hb : ctx.int rhs = .ok b) :
    ctx.int (.binary op .int lhs rhs) = .ok (Evaluated.both op.onInts? a b) := by
  obtain ⟨x, hx, rfl⟩ := map_eq_ok.1 ha
  obtain ⟨y, hy, rfl⟩ := map_eq_ok.1 hb
  exact int_of_num (num_binary hx hy)

/-- A tree of integers always has a result, and it is an integer. -/
theorem exists_num (h : e.Integral ctx.params) :
    ∃ v : Evaluated Int64, ctx.num e = .ok (v.map .int) := by
  induction h with
  | int value text => exact ⟨.valid value, rfl⟩
  | param hp hstatic hvalues => exact ⟨_, (num_param hp hstatic hvalues).1⟩
  | neg _ ih =>
    obtain ⟨v, hv⟩ := ih
    exact ⟨_, num_neg hv⟩
  | binary op _ _ ihl ihr =>
    obtain ⟨a, ha⟩ := ihl
    obtain ⟨b, hb⟩ := ihr
    exact ⟨_, num_binary ha hb⟩

/-! ## Results that do not count -/

/-- That happens at the root or in one of its operands. -/
theorem dividesByZero_iff {n : Node} :
    ctx.DividesByZero n ↔
      (∃ op type lhs rhs, n = .arith (.binary op type lhs rhs) ∧ op.Divides ∧
        ctx.int rhs = .ok (.valid 0)) ∨ ∃ child ∈ n.children, ctx.DividesByZero child := by
  constructor
  · rintro ⟨op, type, lhs, rhs, hcontains, hzero⟩
    rcases Node.contains_iff.1 hcontains with heq | ⟨child, hchild, hrest⟩
    · exact .inl ⟨op, type, lhs, rhs, heq, hzero⟩
    · exact .inr ⟨child, hchild, op, type, lhs, rhs, hrest, hzero⟩
  · rintro (⟨op, type, lhs, rhs, heq, hzero⟩ | ⟨child, hchild, op, type, lhs, rhs, hrest, hzero⟩)
    · exact ⟨op, type, lhs, rhs, Node.contains_iff.2 (.inl heq), hzero⟩
    · exact ⟨op, type, lhs, rhs, Node.contains_iff.2 (.inr ⟨child, hchild, hrest⟩), hzero⟩

theorem dividesByZero_binary {type : NumType} :
    ctx.DividesByZero (.arith (.binary op type lhs rhs)) ↔
      op.Divides ∧ ctx.int rhs = .ok (.valid 0) ∨ ctx.DividesByZero (.arith lhs) ∨
        ctx.DividesByZero (.arith rhs) := by
  rw [dividesByZero_iff]
  simp [Node.children]

/-- A result does not count if a parameter has no value or something is divided by zero. An
operation adds its own divisor to those in its operands. -/
theorem isValid_eq_false_iff (h : e.Integral ctx.params) (hv : ctx.int e = .ok v) :
    v.isValid = false ↔
      (∃ u ∈ e.uses, ctx.Unresolved u.pid) ∨ ctx.DividesByZero (.arith e) := by
  induction h generalizing v with
  | int value text =>
    cases hv
    rw [dividesByZero_iff]
    simp [ArithExpr.uses, Node.children, Evaluated.map, Evaluated.valid]
  | @param pid p hp hstatic hvalues =>
    obtain ⟨hread, hopen⟩ := num_param hp hstatic hvalues
    rw [int_of_num hread, Except.ok.injEq] at hv
    rw [← hv, dividesByZero_iff]
    cases hchosen : ctx.chosenInt? pid <;>
      simp [ArithExpr.uses, Node.children, Use.pid, ← hopen, hchosen, Evaluated.ofOption,
        Evaluated.valid, Evaluated.invalid]
  | neg hoperand ih =>
    obtain ⟨a, ha⟩ := exists_num hoperand
    rw [int_of_num (num_neg ha), Except.ok.injEq] at hv
    rw [← hv, dividesByZero_iff]
    simpa [ArithExpr.uses, Node.children, Evaluated.map] using ih (int_of_num ha)
  | @binary op lhs rhs hl hr ihl ihr =>
    obtain ⟨a, ha⟩ := exists_num hl
    obtain ⟨b, hb⟩ := exists_num hr
    rw [int_binary (int_of_num ha) (int_of_num hb), Except.ok.injEq] at hv
    have huses : (∃ u ∈ (ArithExpr.binary op .int lhs rhs).uses, ctx.Unresolved u.pid) ↔
        (∃ u ∈ lhs.uses, ctx.Unresolved u.pid) ∨ ∃ u ∈ rhs.uses, ctx.Unresolved u.pid := by
      simp only [ArithExpr.uses, List.mem_append, or_and_right, exists_or]
    -- A divisor that does not count is among the operands, so only one that does has to be zero.
    have hdivisor : b.isValid = false ∨ op.Divides ∧ b.value = 0 ↔
        b.isValid = false ∨ op.Divides ∧ ctx.int rhs = .ok (.valid 0) := by
      rw [int_of_num hb]
      obtain ⟨y, vb⟩ := b
      cases vb <;> simp [Evaluated.valid]
    rw [← hv, Evaluated.isValid_both_eq_false, ArithOp.onInts?_eq_none, hdivisor,
      ihl (int_of_num ha), ihr (int_of_num hb), huses, dividesByZero_binary]
    grind

/-! ## Exact values -/

/-- A result that counts is congruent to the exact value, if nothing is divided. -/
theorem int_modEq (h : e.Integral ctx.params) (hv : ctx.int e = .ok v) (hvalid : v.isValid = true)
    (hoperations : ∀ o ∈ e.operations, ¬o.1.Divides) :
    ∃ z, e.wholeValue? ctx.chosenInt? = some z ∧ v.value.toInt ≡ z [ZMOD 2 ^ 64] := by
  induction h generalizing v with
  | int value text =>
    cases hv
    exact ⟨_, rfl, Int.ModEq.refl _⟩
  | @param pid p hp hstatic hvalues =>
    rw [int_of_num (num_param hp hstatic hvalues).1, Except.ok.injEq] at hv
    cases hchosen : ctx.chosenInt? pid with
    | none =>
      rw [← hv, hchosen] at hvalid
      cases hvalid
    | some i =>
      rw [← hv, ArithExpr.wholeValue?, hchosen]
      exact ⟨_, rfl, Int.ModEq.refl _⟩
  | neg hoperand ih =>
    obtain ⟨a, ha⟩ := exists_num hoperand
    rw [int_of_num (num_neg ha), Except.ok.injEq] at hv
    subst hv
    obtain ⟨z, hz, hmod⟩ := ih (int_of_num ha) hvalid hoperations
    rw [ArithExpr.wholeValue?, hz]
    exact ⟨_, rfl, toInt_neg_modEq hmod⟩
  | @binary op lhs rhs hl hr ihl ihr =>
    obtain ⟨a, ha⟩ := exists_num hl
    obtain ⟨b, hb⟩ := exists_num hr
    rw [int_binary (int_of_num ha) (int_of_num hb), Except.ok.injEq] at hv
    subst hv
    obtain ⟨hva, hvb⟩ := Evaluated.isValid_both hvalid
    obtain ⟨hop, hrest⟩ := List.forall_mem_cons.1 hoperations
    obtain ⟨hoperationsl, hoperationsr⟩ := List.forall_mem_append.1 hrest
    obtain ⟨x, hx, hmodx⟩ := ihl (int_of_num ha) hva hoperationsl
    obtain ⟨y, hy, hmody⟩ := ihr (int_of_num hb) hvb hoperationsr
    obtain ⟨c, z, hc, hz, hmod⟩ := ArithOp.onInts?_modEq hop hmodx hmody
    refine ⟨z, ?_, ?_⟩
    · rw [ArithExpr.wholeValue?, hx, hy]
      exact hz
    · have hvalue : (Evaluated.both op.onInts? a b).value = c := by
        simp [Evaluated.both, hva, hvb, hc, Evaluated.ofOption, Evaluated.valid]
      rw [hvalue]
      exact hmod

end Context

/-- Integer arithmetic is exact up to multiples of `2 ^ 64`. A tree of integers always has a result.
It does not count exactly if a parameter that occurs has no value or a divisor comes to zero. If it
counts and nothing is divided in the tree, it is the one number in the range of 64 bits that is
congruent to the exact value. Of operands that count a quotient and a remainder belong together, as
long as the divisor is not zero. -/
theorem int_arithmetic_is_modular (ctx : Context) :
    (∀ e : ArithExpr, e.Integral ctx.params → ∃ v, ctx.int e = .ok v ∧
      (v.isValid = false ↔
        (∃ u ∈ e.uses, ctx.Unresolved u.pid) ∨ ctx.DividesByZero (.arith e)) ∧
      (v.isValid = true → (∀ o ∈ e.operations, ¬o.1.Divides) →
        ∃ z, e.wholeValue? ctx.chosenInt? = some z ∧
          ∀ i : Int, i = v.value.toInt ↔ -2 ^ 63 ≤ i ∧ i < 2 ^ 63 ∧ i ≡ z [ZMOD 2 ^ 64])) ∧
    ∀ lhs rhs a b, ctx.int lhs = .ok (.valid a) → ctx.int rhs = .ok (.valid b) → b ≠ 0 →
      ∃ q r, ctx.int (.binary .div .int lhs rhs) = .ok (.valid q) ∧
        ctx.int (.binary .mod .int lhs rhs) = .ok (.valid r) ∧ IsDivision a b q r := by
  constructor
  · intro e he
    obtain ⟨v, hnum⟩ := Context.exists_num he
    have hv := Context.int_of_num hnum
    refine ⟨v, hv, Context.isValid_eq_false_iff he hv, fun hvalid hoperations => ?_⟩
    obtain ⟨z, hz, hmod⟩ := Context.int_modEq he hv hvalid hoperations
    exact ⟨z, hz, eq_toInt_iff hmod⟩
  · intro lhs rhs a b ha hb hne
    have hresult (op : ArithOp) {c : Int64} (hc : op.onInts? a b = some c) :
        ctx.int (.binary op .int lhs rhs) = .ok (.valid c) := by
      rw [Context.int_binary ha hb]
      simp [Evaluated.both, Evaluated.valid, Evaluated.ofOption, hc]
    exact ⟨a / b, a % b, hresult .div (if_neg hne), hresult .mod (if_neg hne), isDivision a hne⟩

/-- The least integer, which is its own negative, and its quotient by minus one. -/
theorem int_arithmetic_is_modular_least :
    let ctx : Context :=
      ⟨[⟨"a", .int, .values [⟨"-9223372036854775808", .int Int64.minValue⟩], false⟩],
        ⟨[some (.value 0)]⟩, .deciding⟩
    let e : ArithExpr := .binary .sub .int (.neg (.param 0 .int)) (.int 1 "1")
    e.Integral ctx.params ∧ e.wholeValue? ctx.chosenInt? = some (2 ^ 63 - 1) ∧
      (∃ v, ctx.int e = .ok v ∧ v.isValid = true ∧ v.value.toInt = 2 ^ 63 - 1) ∧
      ∃ q r, ctx.int (.binary .div .int (.param 0 .int) (.int (-1) "-1")) = .ok (.valid q) ∧
        ctx.int (.binary .mod .int (.param 0 .int) (.int (-1) "-1")) = .ok (.valid r) ∧
        IsDivision Int64.minValue (-1) q r := by
  intro ctx e
  obtain ⟨htrees, hdivisions⟩ := int_arithmetic_is_modular ctx
  have hint : e.Integral ctx.params := by
    refine .binary .sub (.neg (.param (p := ctx.params[0]) rfl rfl fun v hv => ?_)) (.int 1 "1")
    cases List.mem_singleton.1 hv
    rfl
  have hparam : ctx.int (.param 0 .int) = .ok (.valid Int64.minValue) := by
    rw [Context.int, Context.num, Context.reading_eq]
    rfl
  have hdivisor : ctx.int (.int (-1) "-1") = .ok (.valid (-1)) := rfl
  have hexact : e.wholeValue? ctx.chosenInt? = some (2 ^ 63 - 1) := rfl
  obtain ⟨v, hv, -, hvalue⟩ := htrees e hint
  have hvalid : v.isValid = true := by
    have hgreatest : ctx.int e = .ok (.valid Int64.maxValue) := by
      rw [Context.int, Context.num, Context.reading_eq]
      rfl
    rw [hgreatest, Except.ok.injEq] at hv
    rw [← hv]
    rfl
  obtain ⟨z, hz, hunique⟩ := hvalue hvalid (by simp [e, ArithExpr.operations, ArithOp.Divides])
  rw [hexact, Option.some.injEq] at hz
  refine ⟨hint, hexact, ⟨v, hv, hvalid, ?_⟩, hdivisions _ _ _ _ hparam hdivisor (by decide)⟩
  exact ((hunique _).2 ⟨by omega, by omega, by rw [hz]⟩).symm

end TWay
