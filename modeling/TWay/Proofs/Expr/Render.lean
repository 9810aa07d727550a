import TWay.Expr.Render
import TWay.Proofs.Expr.Uses

/-!
# What a tree is shown as

A tree is shown by the names of the parameters that occur in it, so that two namings which agree on
those show it alike (`Node.render_congr`).
-/

namespace TWay

variable {name name' : ParamId → String}

mutual

theorem StrExpr.render_congr :
    ∀ e : StrExpr, (∀ u ∈ e.uses, name u.pid = name' u.pid) → e.render name = e.render name'
  | .const value, _ => rfl
  | .param pid, h => by
    rw [StrExpr.render, StrExpr.render]
    exact h (.string pid) (by simp [StrExpr.uses])
  | .concat terms, h => by
    rw [StrExpr.render, StrExpr.render, StrExpr.renderAll_congr terms h]

theorem StrExpr.renderAll_congr :
    ∀ terms : List StrExpr, (∀ u ∈ StrExpr.usesAll terms, name u.pid = name' u.pid) →
      StrExpr.renderAll name terms = StrExpr.renderAll name' terms
  | [], _ => rfl
  | term :: terms, h => by
    rw [StrExpr.usesAll, List.forall_mem_append] at h
    rw [StrExpr.renderAll, StrExpr.renderAll, StrExpr.render_congr term h.1,
      StrExpr.renderAll_congr terms h.2]

end

mutual

theorem ArithExpr.render_congr :
    ∀ e : ArithExpr, (∀ u ∈ e.uses, name u.pid = name' u.pid) → e.render name = e.render name'
  | .int value text, _ | .double value text, _ => rfl
  | .param pid type, h => by
    rw [ArithExpr.render, ArithExpr.render]
    exact h (.number pid type) (by simp [ArithExpr.uses])
  | .binary op type lhs rhs, h => by
    rw [ArithExpr.uses, List.forall_mem_append] at h
    rw [ArithExpr.render, ArithExpr.render, ArithExpr.render_congr lhs h.1,
      ArithExpr.render_congr rhs h.2]
  | .neg operand, h => by
    rw [ArithExpr.render, ArithExpr.render, ArithExpr.render_congr operand h]
  | .cast type operand, h => by
    rw [ArithExpr.render, ArithExpr.render, ArithExpr.render_congr operand h]
  | .truth type operand, h => by
    rw [ArithExpr.render, ArithExpr.render, Constraint.render_congr operand h]

theorem Constraint.render_congr :
    ∀ c : Constraint, (∀ u ∈ c.uses, name u.pid = name' u.pid) → c.render name = c.render name'
  | .bool value, _ => rfl
  | .param pid, h => by
    rw [Constraint.render, Constraint.render]
    exact h (.truth pid) (by simp [Constraint.uses])
  | .invalid pid, h => by
    have hname : name pid = name' pid := h (.validity pid) (by simp [Constraint.uses])
    rw [Constraint.render, Constraint.render, hname]
  | .not operand, h => by
    rw [Constraint.render, Constraint.render, Constraint.render_congr operand h]
  | .logic op lhs rhs, h => by
    rw [Constraint.uses, List.forall_mem_append] at h
    rw [Constraint.render, Constraint.render, Constraint.render_congr lhs h.1,
      Constraint.render_congr rhs h.2]
  | .arith op lhs rhs precision, h => by
    rw [Constraint.uses, List.forall_mem_append] at h
    rw [Constraint.render, Constraint.render, ArithExpr.render_congr lhs h.1,
      ArithExpr.render_congr rhs h.2]
  | .string op lhs rhs, h => by
    rw [Constraint.uses, List.forall_mem_append] at h
    rw [Constraint.render, Constraint.render, StrExpr.render_congr lhs h.1,
      StrExpr.render_congr rhs h.2]

end

theorem Node.render_congr {n : Node} (h : ∀ u ∈ n.uses, name u.pid = name' u.pid) :
    n.render name = n.render name' := by
  cases n with
  | arith e => exact ArithExpr.render_congr e h
  | string e => exact StrExpr.render_congr e h
  | constraint c => exact Constraint.render_congr c h

end TWay
