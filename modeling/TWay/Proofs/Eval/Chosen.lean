import TWay.Proofs.Eval.Agreement

/-!
# Chosen values

The tree that reads a parameter comes to the value that the assignment chooses for it, whatever the
type (`Context.node_reference_of_chosen`): a value of a domain has the type of its parameter, so
that the reading takes it, and the conversion to that type changes nothing.
-/

namespace TWay

/-- A value as the valid result of a tree. -/
def Value.evaluation : Value → Evaluation
  | .bool b => .bool (.valid b)
  | .int i => .num (.valid (.int i))
  | .double x => .num (.valid (.double x))
  | .string s => .string (.valid s)

theorem Param.domain_of_value {p : Param} {vid : ValueId} {v : DomainValue}
    (h : p.values[vid]? = some v) : p.domain = .values p.values := by
  cases hd : p.domain with
  | values values => simp [Param.values, hd]
  | auto rules => simp [Param.values, hd] at h

namespace Context

variable {ctx : Context} {pid : ParamId} {p : Param} {vid : ValueId} {v : DomainValue}

theorem node_reference_of_chosen (hp : ctx.params[pid]? = some p) (hv : p.values[vid]? = some v)
    (htype : v.value.type = p.type) (hget : ctx.assignment.get? pid = some (.value vid)) :
    ctx.node (p.type.reference pid) = .ok v.value.evaluation := by
  obtain ⟨hlt, rfl⟩ := List.getElem?_eq_some_iff.1 hv
  have hchosen := chosen?_of_get? hget hlt
  have hread {α : Type} [Inhabited α] (kind : Kind α) {x : α}
      (hx : kind.ofValue? p.values[vid].value = some x) :
      ctx.read kind id (ctx.entering []) pid = .ok (.valid x) :=
    read_of_chosen hp (Param.domain_of_value hv) hchosen hx
  rw [node, reading_eq, ← htype]
  cases hvalue : p.values[vid].value with
  | bool b =>
    have hbool := hread .boolean (congrArg Kind.boolean.ofValue? hvalue)
    exact map_eq_ok.2 ⟨_, hbool, rfl⟩
  | int i =>
    have hnum := hread .number (congrArg Kind.number.ofValue? hvalue)
    exact map_eq_ok.2 ⟨_, bind_eq_ok.2 ⟨_, hnum, rfl⟩, rfl⟩
  | double x =>
    have hnum := hread .number (congrArg Kind.number.ofValue? hvalue)
    exact map_eq_ok.2 ⟨_, bind_eq_ok.2 ⟨_, hnum, rfl⟩, rfl⟩
  | string s =>
    have hstring := hread .string (congrArg Kind.string.ofValue? hvalue)
    exact map_eq_ok.2 ⟨_, hstring, rfl⟩

theorem int_of_node {e : ArithExpr} {x : Evaluated Num} (h : ctx.node (.arith e) = .ok (.num x)) :
    ctx.int e = .ok (x.map Num.toInt) := by
  obtain ⟨y, hy, hnum⟩ := map_eq_ok.1 h
  cases hnum
  exact map_eq_ok.2 ⟨x, hy, rfl⟩

end Context

end TWay
