import Mathlib.Logic.Relation
import TWay.Proofs.Assembled

/-!
# What a tree consists of

A tree contains itself and what its operands contain (`Node.Contains`). The static types at the root
of a tree are coherent when an operation has the join of the types of its operands, and a parameter
is read as what it was declared to be (`Node.Coherent`). Each part of an assembled tree is one, and
all of them are coherent.
-/

namespace TWay

variable {params : Params} {n m : Node}

/-- The operands of the root. -/
def Node.children : Node → List Node
  | .arith (.binary _ _ lhs rhs) => [.arith lhs, .arith rhs]
  | .arith (.neg operand) | .arith (.cast _ operand) => [.arith operand]
  | .arith (.truth _ operand) | .constraint (.not operand) => [.constraint operand]
  | .string (.concat terms) => terms.map .string
  | .constraint (.logic _ lhs rhs) => [.constraint lhs, .constraint rhs]
  | .constraint (.arith _ lhs rhs _) => [.arith lhs, .arith rhs]
  | .constraint (.string _ lhs rhs) => [.string lhs, .string rhs]
  | _ => []

/-- The second tree is the first one, or a part of it. -/
def Node.Contains (n m : Node) : Prop :=
  Relation.ReflTransGen (fun parent child => child ∈ parent.children) n m

/-- The static types at the root are coherent: an operation has the join of those of its operands, a
remainder is of two integers, and a parameter is read as what it was declared to be. -/
def Node.Coherent (params : Params) : Node → Prop
  | .arith (.binary op type lhs rhs) =>
    type = lhs.type.join rhs.type ∧ (op = .mod → lhs.type = .int ∧ rhs.type = .int)
  | .arith (.param pid type) => ∃ p, params[pid]? = some p ∧ p.type.numType? = some type
  | .string (.param pid) => ∃ p, params[pid]? = some p ∧ p.type = .string
  | .constraint (.param pid) => ∃ p, params[pid]? = some p ∧ p.type = .bool
  | _ => True

theorem Node.contains_iff : n.Contains m ↔ n = m ∨ ∃ child ∈ n.children, child.Contains m :=
  Relation.ReflTransGen.cases_head_iff

/-- A literal has no operands. -/
theorem Node.children_of_isLiteral (h : n.isLiteral = true) : n.children = [] := by
  unfold Node.isLiteral at h
  split at h <;> first | rfl | cases h

theorem Node.coherent_of_isLiteral (h : n.isLiteral = true) : n.Coherent params := by
  unfold Node.isLiteral at h
  split at h <;> trivial

theorem ParamType.children_reference (type : ParamType) (pid : ParamId) :
    (type.reference pid).children = [] := by
  cases type <;> rfl

namespace Assembled

/-- The operands have been assembled before. -/
theorem child (h : Assembled params n) (hm : m ∈ n.children) : Assembled params m := by
  cases h with
  | literal hliteral =>
    rw [Node.children_of_isLiteral hliteral] at hm
    cases hm
  | reference hp =>
    rw [ParamType.children_reference] at hm
    cases hm
  | marker hp => cases hm
  | binary hl hr _ | logic hl hr | relation hl hr | strings hl hr =>
    rcases List.mem_cons.1 hm with rfl | hm
    · exact hl
    · exact List.mem_singleton.1 hm ▸ hr
  | neg h | cast h | truth h | not h => exact List.mem_singleton.1 hm ▸ h
  | concat h =>
    obtain ⟨e, he, rfl⟩ := List.mem_map.1 hm
    exact h e he

/-- So has each part of the tree. -/
theorem part (h : Assembled params n) (hm : n.Contains m) : Assembled params m := by
  induction hm with
  | refl => exact h
  | tail _ hchild ih => exact ih.child hchild

theorem coherent (h : Assembled params n) : n.Coherent params := by
  cases h with
  | literal hliteral => exact Node.coherent_of_isLiteral hliteral
  | reference hp =>
    rename_i p
    cases ht : p.type <;> exact ⟨p, hp, by simp [ht, ParamType.numType?]⟩
  | binary _ _ hmod => exact ⟨rfl, hmod⟩
  | _ => trivial

end Assembled

end TWay
