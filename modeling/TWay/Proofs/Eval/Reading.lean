import TWay.Eval.Resolve
import TWay.Proofs.Assignment
import TWay.Proofs.Except

/-!
# How a parameter reads

The three kinds of readings and the question whether a parameter is invalid go through the same
cases. Of a computed parameter they all depend on one thing, what its rules come to (`fired`), which
does not depend on the kind (`read_auto_eq_ok`, `readInvalid_auto`).
-/

namespace TWay

variable {ε α : Type}

/-- What the rules of a computed parameter come to: nothing where none fires, and else what the
value of the first one that does gives. -/
def fired (policy : Policy) (r : Readings ε) (rules : List AutoRule) :
    Except ε (Option Evaluation) := do
  match ← firstFiring policy r rules with
  | none => return none
  | some node => return some (← node.eval policy r)

theorem firstFiring_cons_eq_ok {policy : Policy} {r : Readings ε} {rule : AutoRule}
    {rules : List AutoRule} {o : Option Node} :
    firstFiring policy r (rule :: rules) = .ok o ↔
      ∃ v, rule.condition.eval policy r = .ok v ∧
        (if v.holds then some rule.value = o else firstFiring policy r rules = .ok o) := by
  rw [firstFiring, bind_eq_ok]
  refine exists_congr fun v => and_congr_right fun _ => ?_
  split
  · exact pure_eq_ok
  · exact Iff.rfl

/-- Only the value of one of the rules fires. -/
theorem firstFiring_eq_some {policy : Policy} {r : Readings ε} {rules : List AutoRule} {n : Node}
    (h : firstFiring policy r rules = .ok (some n)) : ∃ rule ∈ rules, rule.value = n := by
  induction rules with
  | nil => cases h
  | cons rule rules ih =>
    obtain ⟨v, -, h⟩ := firstFiring_cons_eq_ok.1 h
    split at h
    · exact ⟨rule, List.mem_cons_self, Option.some.inj h⟩
    · obtain ⟨rule', hmem, hvalue⟩ := ih h
      exact ⟨rule', List.mem_cons_of_mem _ hmem, hvalue⟩

theorem fired_eq_ok {policy : Policy} {r : Readings ε} {rules : List AutoRule}
    {o : Option Evaluation} :
    fired policy r rules = .ok o ↔
      (firstFiring policy r rules = .ok none ∧ o = none) ∨
        ∃ node x, firstFiring policy r rules = .ok (some node) ∧ node.eval policy r = .ok x ∧
          o = some x := by
  rw [fired, bind_eq_ok]
  constructor
  · rintro ⟨_ | node, hf, ho⟩
    · exact .inl ⟨hf, (pure_eq_ok.1 ho).symm⟩
    · obtain ⟨x, hx, hxo⟩ := bind_eq_ok.1 ho
      exact .inr ⟨node, x, hf, hx, (pure_eq_ok.1 hxo).symm⟩
  · rintro (⟨hf, rfl⟩ | ⟨node, x, hf, hx, rfl⟩)
    · exact ⟨none, hf, rfl⟩
    · exact ⟨some node, hf, bind_eq_ok.2 ⟨x, hx, rfl⟩⟩

/-- The kind takes from a tree exactly the results that `wrap` tells as results of any tree. -/
def Kind.Faithful (kind : Kind α) (wrap : Evaluated α → Evaluation) : Prop :=
  ∀ {ε : Type} (policy : Policy) (r : Readings ε) (n : Node) (v : Evaluated α),
    kind.eval? policy r n = some (.ok v) ↔ n.eval policy r = .ok (wrap v)

theorem Kind.number_faithful : Kind.number.Faithful .num := by
  intro ε policy r n v
  cases n <;> simp [Kind.number, Node.eval, map_eq_ok]

theorem Kind.string_faithful : Kind.string.Faithful .string := by
  intro ε policy r n v
  cases n <;> simp [Kind.string, Node.eval, map_eq_ok]

theorem Kind.boolean_faithful : Kind.boolean.Faithful .bool := by
  intro ε policy r n v
  cases n <;> simp [Kind.boolean, Node.eval, map_eq_ok]

theorem Param.domain_of_static {p : Param} (h : p.isAuto = false) :
    p.domain = .values p.values := by
  cases hd : p.domain with
  | values values => rw [Param.values, hd]
  | auto rules => simp [isAuto, hd] at h

theorem Param.domain_of_auto {p : Param} (h : p.isAuto = true) : p.domain = .auto p.rules := by
  cases hd : p.domain with
  | values values => simp [isAuto, hd] at h
  | auto rules => rw [Param.rules, hd]

namespace Context

section

variable [Inhabited α] {ctx : Context} {kind : Kind α} {wrap : Evaluated α → Evaluation}
  {fail : EvalError → ε} {enter : ParamId → Except ε (Readings ε)} {pid : ParamId} {p : Param}

theorem read_values {values : List DomainValue} (hp : ctx.params[pid]? = some p)
    (hd : p.domain = .values values) :
    ctx.read kind fail enter pid =
      match ctx.chosen? pid values with
      | none => .ok .invalid
      | some value =>
        match kind.ofValue? value with
        | some x => .ok (.valid x)
        | none => .error (fail (.typeMismatch p.name kind.label p.type)) := by
  obtain ⟨name, type, domain, aux⟩ := p
  cases hd
  unfold read
  split
  · rename_i hnone
    cases hp.symm.trans hnone
  · rename_i q hq
    cases hp.symm.trans hq
    rfl

theorem read_none (hp : ctx.params[pid]? = none) :
    ctx.read kind fail enter pid = .error (fail (.unknownParam pid ctx.params.length)) := by
  rw [read, hp]

theorem read_auto {rules : List AutoRule} (hp : ctx.params[pid]? = some p)
    (hd : p.domain = .auto rules) :
    ctx.read kind fail enter pid = (do
      let inner ← enter pid
      match ← firstFiring ctx.policy inner rules with
      | none => return .invalid
      | some node =>
        (kind.eval? ctx.policy inner node).getD
          (.error (fail (.typeMismatch p.name kind.label p.type)))) := by
  obtain ⟨name, type, domain, aux⟩ := p
  cases hd
  unfold read
  split
  · rename_i hnone
    cases hp.symm.trans hnone
  · rename_i q hq
    cases hp.symm.trans hq
    rfl

theorem read_auto_eq_ok {rules : List AutoRule} {v : Evaluated α} (hk : kind.Faithful wrap)
    (hp : ctx.params[pid]? = some p) (hd : p.domain = .auto rules) :
    ctx.read kind fail enter pid = .ok v ↔
      ∃ inner o, enter pid = .ok inner ∧ fired ctx.policy inner rules = .ok o ∧
        (o = none ∧ v = .invalid ∨ o = some (wrap v)) := by
  simp only [read_auto hp hd, bind_eq_ok]
  constructor
  · rintro ⟨inner, hi, _ | node, hf, hv⟩
    · exact ⟨inner, none, hi, fired_eq_ok.2 (.inl ⟨hf, rfl⟩), .inl ⟨rfl, (pure_eq_ok.1 hv).symm⟩⟩
    · cases he : kind.eval? ctx.policy inner node with
      | none => simp [he] at hv
      | some x =>
        simp only [he, Option.getD_some] at hv
        subst hv
        have hn := (hk ctx.policy inner node v).1 he
        exact ⟨inner, some (wrap v), hi, fired_eq_ok.2 (.inr ⟨node, wrap v, hf, hn, rfl⟩), .inr rfl⟩
  · rintro ⟨inner, o, hi, hf, ho⟩
    refine ⟨inner, hi, ?_⟩
    rcases fired_eq_ok.1 hf with ⟨hn, rfl⟩ | ⟨node, x, hn, hx, rfl⟩
    · obtain ⟨-, rfl⟩ | ho := ho
      · exact ⟨none, hn, rfl⟩
      · cases ho
    · obtain ⟨ho, -⟩ | ho := ho
      · cases ho
      · cases ho
        have he := (hk ctx.policy inner node v).2 hx
        exact ⟨some node, hn, by simp only [he, Option.getD_some]⟩

end

variable {ctx : Context} {fail : EvalError → ε} {enter : ParamId → Except ε (Readings ε)}
  {pid : ParamId} {p : Param}

/-- A parameter read as a value of a type. -/
def readAs (ctx : Context) (type : ParamType) (fail : EvalError → ε)
    (enter : ParamId → Except ε (Readings ε)) (pid : ParamId) : Except ε Evaluation :=
  match type with
  | .int | .double => .num <$> ctx.read .number fail enter pid
  | .string => .string <$> ctx.read .string fail enter pid
  | .bool => .bool <$> ctx.read .boolean fail enter pid

theorem readInvalid_values {values : List DomainValue} (hp : ctx.params[pid]? = some p)
    (hd : p.domain = .values values) :
    ctx.readInvalid fail enter pid =
      match ctx.assignment.get? pid with
      | none => .ok .invalid
      | some .invalid => .ok (.valid true)
      | some (.value vid) => .ok (.valid (decide (values.length ≤ vid))) := by
  obtain ⟨name, type, domain, aux⟩ := p
  cases hd
  unfold readInvalid
  split
  · rename_i hnone
    cases hp.symm.trans hnone
  · rename_i q hq
    cases hp.symm.trans hq
    rfl

theorem readInvalid_none (hp : ctx.params[pid]? = none) :
    ctx.readInvalid fail enter pid = .error (fail (.unknownParam pid ctx.params.length)) := by
  rw [readInvalid, hp]

/-- A computed parameter is invalid when it is as a value of its type. -/
theorem readInvalid_auto {rules : List AutoRule} (hp : ctx.params[pid]? = some p)
    (hd : p.domain = .auto rules) :
    ctx.readInvalid fail enter pid = (do
      let x ← ctx.readAs p.type fail enter pid
      return .valid !x.isValid) := by
  rw [readInvalid, hp]
  simp only [hd]
  cases p.type with
  | int => cases h : ctx.read .number fail enter pid <;> simp only [readAs, h] <;> rfl
  | double => cases h : ctx.read .number fail enter pid <;> simp only [readAs, h] <;> rfl
  | string => cases h : ctx.read .string fail enter pid <;> simp only [readAs, h] <;> rfl
  | bool => cases h : ctx.read .boolean fail enter pid <;> simp only [readAs, h] <;> rfl

theorem readInvalid_auto_eq_ok {rules : List AutoRule} {v : Evaluated Bool}
    (hp : ctx.params[pid]? = some p) (hd : p.domain = .auto rules) :
    ctx.readInvalid fail enter pid = .ok v ↔
      ∃ x, ctx.readAs p.type fail enter pid = .ok x ∧ v = .valid !x.isValid := by
  rw [readInvalid_auto hp hd, bind_eq_ok]
  exact exists_congr fun x => and_congr_right fun _ => pure_eq_ok.trans eq_comm

/-! ## Chosen values -/

theorem chosen?_of_get? {values : List DomainValue} {vid : ValueId}
    (hget : ctx.assignment.get? pid = some (.value vid)) (hlt : vid < values.length) :
    ctx.chosen? pid values = some values[vid].value := by
  simp [chosen?, Assignment.valueId?, hget, hlt]

theorem chosen?_of_leavesInvalid {values : List DomainValue} {slot : Slot}
    (hget : ctx.assignment.get? pid = some slot) (h : slot.LeavesInvalid values.length) :
    ctx.chosen? pid values = none := by
  cases slot with
  | value vid =>
    have hbeyond : values[vid]? = none := List.getElem?_eq_none h
    simp [chosen?, Assignment.valueId?, hget, hbeyond]
  | invalid => simp [chosen?, Assignment.valueId?, hget]

/-- A chosen value reads as a valid one. -/
theorem read_of_chosen {α : Type} [Inhabited α] {kind : Kind α} {values : List DomainValue}
    (hp : ctx.params[pid]? = some p) (hd : p.domain = .values values) {value : Value}
    (hchosen : ctx.chosen? pid values = some value) {x : α} (hx : kind.ofValue? value = some x) :
    ctx.read kind fail enter pid = .ok (.valid x) := by
  rw [read_values hp hd, hchosen]
  simp only [hx]

theorem read_of_unchosen {α : Type} [Inhabited α] {kind : Kind α} {values : List DomainValue}
    (hp : ctx.params[pid]? = some p) (hd : p.domain = .values values)
    (hchosen : ctx.chosen? pid values = none) : ctx.read kind fail enter pid = .ok .invalid := by
  rw [read_values hp hd, hchosen]

theorem readInvalid_of_leavesInvalid {values : List DomainValue} {slot : Slot}
    (hp : ctx.params[pid]? = some p) (hd : p.domain = .values values)
    (hget : ctx.assignment.get? pid = some slot) (h : slot.LeavesInvalid values.length) :
    ctx.readInvalid fail enter pid = .ok (.valid true) := by
  rw [readInvalid_values hp hd, hget]
  cases slot with
  | value vid =>
    have hbeyond : values.length ≤ vid := h
    simp [hbeyond]
  | invalid => rfl

/-! ## Rules that are entered -/

/-- How the parameters read inside the rules of a computed one, unless it is being resolved. -/
def entering (ctx : Context) (busy : List ParamId) (pid : ParamId) :
    Except EvalError (Readings EvalError) :=
  if pid ∈ ctx.unresolved busy then .ok (ctx.resolving (pid :: busy))
  else .error (.autoCycle (ctx.params.nameOf pid))

theorem resolving_eq (ctx : Context) (busy : List ParamId) :
    ctx.resolving busy = ctx.readings id (ctx.entering busy) := by
  rw [resolving]
  rfl

theorem reading_eq (ctx : Context) : ctx.reading = ctx.readings id (ctx.entering []) :=
  resolving_eq ctx []

theorem constraint_eq (c : Constraint) :
    ctx.constraint c = c.eval ctx.policy (ctx.readings id (ctx.entering [])) := by
  rw [constraint, reading_eq]

theorem constraint_invalid_eq :
    ctx.constraint (.invalid pid) = ctx.readInvalid id (ctx.entering []) pid := by
  rw [constraint_eq, Constraint.eval]
  rfl

theorem node_number (ctx : Context) (pid : ParamId) (type : NumType) :
    ctx.node (.arith (.param pid type)) = (do
      let v ← ctx.read .number id (ctx.entering []) pid
      return .num (v.map fun n => n.convert type)) := by
  rw [node, reading_eq, Node.eval, ArithExpr.eval]
  dsimp only [readings]
  cases ctx.read .number id (ctx.entering []) pid <;> rfl

/-- The tree that reads a parameter converts its value. That changes neither a failure nor whether
the value counts. -/
theorem isValid_node_reference (ctx : Context) (pid : ParamId) (type : ParamType) :
    Evaluation.isValid <$> ctx.node (type.reference pid) =
      Evaluation.isValid <$> ctx.readAs type id (ctx.entering []) pid := by
  rw [node, reading_eq]
  cases type <;>
    simp only [ParamType.reference, Node.eval, ArithExpr.eval, StrExpr.eval, Constraint.eval,
      readings, readAs]
  · cases ctx.read .number id (ctx.entering []) pid <;> rfl
  · cases ctx.read .number id (ctx.entering []) pid <;> rfl

/-- The tree that reads a parameter comes to a valid result when the parameter does. -/
theorem node_reference {type : ParamType} {x : Evaluation}
    (h : ctx.readAs type id (ctx.entering []) pid = .ok x) :
    ∃ y, ctx.node (type.reference pid) = .ok y ∧ y.isValid = x.isValid := by
  have hvalid : Evaluation.isValid <$> ctx.node (type.reference pid) = .ok x.isValid := by
    rw [isValid_node_reference, h, map_ok]
  exact map_eq_ok.1 hvalid

theorem entering_eq_ok {busy : List ParamId} {inner : Readings EvalError} :
    ctx.entering busy pid = .ok inner ↔
      pid ∈ ctx.unresolved busy ∧ inner = ctx.resolving (pid :: busy) := by
  unfold entering
  split <;> simp_all [eq_comm]

theorem isAuto_of_getElem? (hp : ctx.params[pid]? = some p) (hauto : p.isAuto = true) :
    ctx.isAuto pid = true := by
  simpa [isAuto, hp] using hauto

/-- A computed parameter can be resolved while it is not among those that are. -/
theorem entering_of_not_mem {busy : List ParamId} {rules : List AutoRule}
    (hp : ctx.params[pid]? = some p) (hd : p.domain = .auto rules) (h : pid ∉ busy) :
    ctx.entering busy pid = .ok (ctx.resolving (pid :: busy)) := by
  have hauto : ctx.isAuto pid = true := isAuto_of_getElem? hp (by rw [Param.isAuto, hd])
  exact entering_eq_ok.2 ⟨mem_unresolved.2 ⟨hauto, h⟩, rfl⟩

theorem entering_of_mem {busy : List ParamId} (h : pid ∈ busy) :
    ctx.entering busy pid = .error (.autoCycle (ctx.params.nameOf pid)) := by
  have hnot : pid ∉ ctx.unresolved busy := fun hun => (mem_unresolved.1 hun).2 h
  rw [entering, if_neg hnot]

end Context

end TWay
