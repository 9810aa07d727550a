import TWay.Param
import TWay.Proofs.Expr.Uses

/-!
# What fits the parameters

The tree that reads a parameter goes by its type, and a tree that is built from others reads what
they read. So each tree that comes from literals, references and markers by building fits the
parameters that were there: `Assembled` is closed under the ways of building, and `uses_fit` says
that such a tree asks no parameter for what it does not have. A list of parameters is `Layered` when
the rules of each one are such trees over the parameters before it.
-/

namespace TWay

/-- The parameter is there, and of a type that can be read in this way. -/
def Use.Fits (params : Params) (u : Use) : Prop :=
  ∃ p, params[u.pid]? = some p ∧
    match u with
    | .number _ type => p.type.numType? = some type
    | .string _ => p.type = .string
    | .truth _ => p.type = .bool
    | .validity _ => True

/-- Trees over these parameters as they come out of the ways of building. -/
inductive Assembled (params : Params) : Node → Prop where
  | literal {n : Node} : n.isLiteral = true → Assembled params n
  | reference {pid : ParamId} {p : Param} :
    params[pid]? = some p → Assembled params (p.type.reference pid)
  | marker {pid : ParamId} {p : Param} :
    params[pid]? = some p → Assembled params (.constraint (.invalid pid))
  /-- The type is the join of those of the operands; a remainder is of two integers. -/
  | binary {op : ArithOp} {lhs rhs : ArithExpr} :
    Assembled params (.arith lhs) → Assembled params (.arith rhs) →
      (op = .mod → lhs.type = .int ∧ rhs.type = .int) →
        Assembled params (.arith (.binary op (lhs.type.join rhs.type) lhs rhs))
  | neg {e : ArithExpr} : Assembled params (.arith e) → Assembled params (.arith (.neg e))
  | cast {type : NumType} {e : ArithExpr} :
    Assembled params (.arith e) → Assembled params (.arith (.cast type e))
  | truth {type : NumType} {c : Constraint} :
    Assembled params (.constraint c) → Assembled params (.arith (.truth type c))
  | concat {es : List StrExpr} :
    (∀ e ∈ es, Assembled params (.string e)) → Assembled params (.string (.concat es))
  | not {c : Constraint} :
    Assembled params (.constraint c) → Assembled params (.constraint (.not c))
  | logic {op : LogicOp} {lhs rhs : Constraint} :
    Assembled params (.constraint lhs) → Assembled params (.constraint rhs) →
      Assembled params (.constraint (.logic op lhs rhs))
  | relation {op : RelOp} {lhs rhs : ArithExpr} {precision : Float} :
    Assembled params (.arith lhs) → Assembled params (.arith rhs) →
      Assembled params (.constraint (.arith op lhs rhs precision))
  | strings {op : StrOp} {lhs rhs : StrExpr} :
    Assembled params (.string lhs) → Assembled params (.string rhs) →
      Assembled params (.constraint (.string op lhs rhs))

variable {params params' : Params}

theorem getElem?_mono {α : Type} {l l' : List α} {i : Nat} {a : α} (hle : l <+: l')
    (h : l[i]? = some a) : l'[i]? = some a := by
  obtain ⟨more, rfl⟩ := hle
  rw [List.getElem?_append_left (List.getElem?_eq_some_iff.1 h).1]
  exact h

namespace Assembled

/-- More parameters after the others take nothing away. -/
theorem mono (hle : params <+: params') {n : Node} (h : Assembled params n) :
    Assembled params' n := by
  induction h with
  | literal h => exact .literal h
  | reference hp => exact .reference (getElem?_mono hle hp)
  | marker hp => exact .marker (getElem?_mono hle hp)
  | binary _ _ hmod ihl ihr => exact .binary ihl ihr hmod
  | neg _ ih => exact .neg ih
  | cast _ ih => exact .cast ih
  | truth _ ih => exact .truth ih
  | concat _ ih => exact .concat ih
  | not _ ih => exact .not ih
  | logic _ _ ihl ihr => exact .logic ihl ihr
  | relation _ _ ihl ihr => exact .relation ihl ihr
  | strings _ _ ihl ihr => exact .strings ihl ihr

theorem reference_fits {pid : ParamId} {p : Param} (hp : params[pid]? = some p) :
    ∀ u ∈ (p.type.reference pid).uses, u.Fits params := by
  intro u hu
  cases ht : p.type <;> rw [ht] at hu <;> cases List.mem_singleton.1 hu
  all_goals exact ⟨p, hp, by simp [ht, ParamType.numType?]⟩

/-- The induction follows the ways of building, each of which asks what its operands ask. -/
theorem uses_fit {n : Node} (h : Assembled params n) : ∀ u ∈ n.uses, u.Fits params := by
  induction h with
  | literal h =>
    rw [Node.uses_of_isLiteral h]
    simp
  | reference hp => exact reference_fits hp
  | marker hp =>
    intro u hu
    cases List.mem_singleton.1 hu
    exact ⟨_, hp, trivial⟩
  | binary _ _ _ ihl ihr => exact List.forall_mem_append.2 ⟨ihl, ihr⟩
  | neg _ ih => exact ih
  | cast _ ih => exact ih
  | truth _ ih => exact ih
  | concat _ ih =>
    intro u hu
    obtain ⟨e, he, hu⟩ := StrExpr.mem_usesAll.1 hu
    exact ih e he u hu
  | not _ ih => exact ih
  | logic _ _ ihl ihr => exact List.forall_mem_append.2 ⟨ihl, ihr⟩
  | relation _ _ ihl ihr => exact List.forall_mem_append.2 ⟨ihl, ihr⟩
  | strings _ _ ihl ihr => exact List.forall_mem_append.2 ⟨ihl, ihr⟩

end Assembled

/-! ## Parameters -/

/-- The type that a value belongs to. -/
def Value.type : Value → ParamType
  | .bool _ => .bool
  | .int _ => .int
  | .double _ => .double
  | .string _ => .string

/-- A parameter whose rules are trees over these others, and whose values are all of its type. -/
structure Param.Over (others : Params) (p : Param) : Prop where
  value_type : ∀ v ∈ p.values, v.value.type = p.type
  condition : ∀ rule ∈ p.rules, Assembled others (.constraint rule.condition)
  value : ∀ rule ∈ p.rules, Assembled others rule.value
  family : ∀ rule ∈ p.rules, rule.value.family = p.type.family

/-- Each parameter is over those before it. -/
def Params.Layered (params : Params) : Prop :=
  ∀ (pid : ParamId) (p : Param), params[pid]? = some p → p.Over (params.take pid)

theorem Param.Over.mono (hle : params <+: params') {p : Param} (h : p.Over params) :
    p.Over params' where
  value_type := h.value_type
  condition rule hrule := (h.condition rule hrule).mono hle
  value rule hrule := (h.value rule hrule).mono hle
  family := h.family

/-- An auxiliary parameter is over the same others. -/
theorem Param.Over.withAux {p : Param} (h : p.Over params) (aux : Bool) :
    Param.Over params { p with aux } where
  value_type := h.value_type
  condition := h.condition
  value := h.value
  family := h.family

theorem Params.Layered.nil : Params.Layered [] := by
  intro pid p hp
  simp at hp

theorem Params.Layered.snoc (h : params.Layered) {p : Param} (hp : p.Over params) :
    Params.Layered (params ++ [p]) := by
  intro pid q hq
  rcases Nat.lt_or_ge pid params.length with hlt | hge
  · rw [List.getElem?_append_left hlt] at hq
    rw [List.take_append_of_le_length (Nat.le_of_lt hlt)]
    exact h pid q hq
  · rw [List.getElem?_append_right hge, List.getElem?_singleton] at hq
    split at hq
    · rename_i hzero
      have hpid : pid = params.length := Nat.le_antisymm (Nat.le_of_sub_eq_zero hzero) hge
      cases hq
      rw [hpid, List.take_left]
      exact hp
    · cases hq

end TWay
