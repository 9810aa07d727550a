import TWay.Proofs.Assembled
import TWay.Proofs.Eval.Policy
import TWay.Proofs.Eval.Reading
import TWay.Proofs.Eval.Relation

/-!
# Evaluations that agree

An evaluation fails only where a parameter has no answer to a use. Over layered parameters every use
that fits has one: a parameter from a list of values has values of its type only, and the rules of a
computed one read parameters before it, none of which is being resolved. So every assembled tree
evaluates to a result under every assignment (`node_total`), and to the same one when more
parameters come behind the others (`node_agreed`).

Where in addition everything is known, the result is valid and both policies come to it. That takes
a chosen value for each parameter from a list, a rule for the remaining cases for each computed one,
and that no integer is divided. The two are proved together, as what `agreed` says without and with
`known`.
-/

namespace TWay

variable {ε ε' : Type}

/-! ## Results that are the same -/

/-- Dividing integers, which has no result where the divisor is zero. -/
def ArithOp.DividesInts (op : ArithOp) (type : NumType) : Prop :=
  type = .int ∧ (op = .div ∨ op = .mod)

theorem ArithOp.exists_result {op : ArithOp} {type : NumType} (h : ¬op.DividesInts type)
    (a b : Num) : ∃ n, op.result? type a b = some n := by
  cases type <;> cases op <;> simp_all [DividesInts, result?, onInts?]

/-- No integer is divided in the tree. -/
def Node.DividesNoInt (n : Node) : Prop := ∀ o ∈ n.operations, ¬o.1.DividesInts o.2

namespace ResultRel

/-- Both sides have the same result, and a valid one where everything is `known`. -/
def agreed (known : Prop) : ResultRel ε ε' := fun _ x y =>
  ∃ v, x = .ok v ∧ y = .ok v ∧ (known → v.isValid = true)

theorem agreed_kept {known : Prop} {policy policy' : Policy} (hpolicy : policy' = policy ∨ known) :
    (agreed known : ResultRel ε ε').KeptWhere policy policy'
      fun op type => known → ¬op.DividesInts type where
  valid a := ⟨_, rfl, rfl, fun _ => rfl⟩
  map f x x' h := by
    obtain ⟨a, rfl, rfl, ha⟩ := h
    exact ⟨_, rfl, rfl, ha⟩
  operation hallowed x y x' y' hx hy := by
    obtain ⟨a, rfl, rfl, ha⟩ := hx
    obtain ⟨b, rfl, rfl, hb⟩ := hy
    refine ⟨_, rfl, rfl, fun hknown => ?_⟩
    obtain ⟨n, hn⟩ := ArithOp.exists_result (hallowed hknown) a.value b.value
    exact Evaluated.isValid_both_of_some (ha hknown) (hb hknown) hn
  comparison f x x' y y' hx hy := by
    obtain ⟨a, rfl, rfl, ha⟩ := hx
    obtain ⟨b, rfl, rfl, hb⟩ := hy
    exact ⟨_, rfl, rfl, fun hknown =>
      Evaluated.isValid_both_of_some (ha hknown) (hb hknown) rfl⟩
  logic op x y x' y' hx hy := by
    obtain ⟨a, rfl, rfl, ha⟩ := hx
    obtain ⟨b, rfl, rfl, hb⟩ := hy
    have hsame : policy'.logic op a b = policy.logic op a b := by
      rcases hpolicy with rfl | hknown
      · rfl
      · exact Policy.logic_of_valid policy' (ha hknown) (hb hknown)
    exact ⟨_, rfl, congrArg Except.ok hsame, fun hknown =>
      Policy.isValid_logic (ha hknown) (hb hknown)⟩

theorem agreed_keptByTerms {known : Prop} : (agreed known : ResultRel ε ε').KeptByTerms where
  const s := ⟨_, rfl, rfl, fun _ => rfl⟩
  append hx hy := by
    obtain ⟨a, rfl, rfl, ha⟩ := hx
    obtain ⟨b, rfl, rfl, hb⟩ := hy
    cases hvalid : a.isValid with
    | true =>
      exact ⟨_, if_pos hvalid, if_pos hvalid, fun hknown =>
        Evaluated.isValid_both_of_some (ha hknown) (hb hknown) rfl⟩
    | false =>
      refine ⟨_, if_neg (by simp [hvalid]), if_neg (by simp [hvalid]), fun hknown => ?_⟩
      rw [ha hknown] at hvalid
      cases hvalid

end ResultRel

section

variable {known : Prop} {policy policy' : Policy} {r : Readings ε} {r' : Readings ε'}

theorem StrExpr.eval_agreed (e : StrExpr)
    (h : ∀ u ∈ e.uses, (ResultRel.agreed known).At r r' u) :
    ResultRel.agreed known String (e.eval r) (e.eval r') :=
  StrExpr.eval_related ResultRel.agreed_keptByTerms e h

theorem Constraint.eval_agreed (hpolicy : policy' = policy ∨ known) {c : Constraint}
    (hops : known → (Node.constraint c).DividesNoInt)
    (h : ∀ u ∈ c.uses, (ResultRel.agreed known).At r r' u) :
    ResultRel.agreed known Bool (c.eval policy r) (c.eval policy' r') :=
  Constraint.eval_relatedWhere (ResultRel.agreed_kept hpolicy) StrExpr.eval_agreed c
    (fun o ho hknown => hops hknown o ho) h

theorem Node.eval_agreed (hpolicy : policy' = policy ∨ known) {n : Node}
    (hops : known → n.DividesNoInt) (h : ∀ u ∈ n.uses, (ResultRel.agreed known).At r r' u) :
    ∃ x, n.eval policy r = .ok x ∧ n.eval policy' r' = .ok x ∧ (known → x.isValid = true) := by
  cases n with
  | arith e =>
    obtain ⟨v, hv, hv', hvalid⟩ :=
      ArithExpr.eval_relatedWhere (ResultRel.agreed_kept hpolicy) StrExpr.eval_agreed e
        (fun o ho hknown => hops hknown o ho) h
    exact ⟨.num v, map_eq_ok.2 ⟨v, hv, rfl⟩, map_eq_ok.2 ⟨v, hv', rfl⟩, hvalid⟩
  | string e =>
    obtain ⟨v, hv, hv', hvalid⟩ := e.eval_agreed h
    exact ⟨.string v, map_eq_ok.2 ⟨v, hv, rfl⟩, map_eq_ok.2 ⟨v, hv', rfl⟩, hvalid⟩
  | constraint c =>
    obtain ⟨v, hv, hv', hvalid⟩ := Constraint.eval_agreed hpolicy hops h
    exact ⟨.bool v, map_eq_ok.2 ⟨v, hv, rfl⟩, map_eq_ok.2 ⟨v, hv', rfl⟩, hvalid⟩

end

/-! ## Rules -/

/-- The family of the trees that come to such a result. -/
def Evaluation.family : Evaluation → Family
  | .num _ => .arith
  | .string _ => .string
  | .bool _ => .constraint

theorem Node.family_of_eval {policy : Policy} {r : Readings ε} {n : Node} {x : Evaluation}
    (h : n.eval policy r = .ok x) : x.family = n.family := by
  cases n <;> obtain ⟨v, -, rfl⟩ := map_eq_ok.1 h <;> rfl

/-- The last rule applies in all cases that are left. -/
def EndsInTrue (rules : List AutoRule) : Prop :=
  ∃ rule, rules.getLast? = some rule ∧ rule.condition = .bool true

theorem firstFiring_ne_none {policy : Policy} {r : Readings ε} {rules : List AutoRule}
    (h : EndsInTrue rules) : firstFiring policy r rules ≠ .ok none := by
  induction rules with
  | nil =>
    obtain ⟨rule, hlast, -⟩ := h
    cases hlast
  | cons rule rules ih =>
    intro hnone
    obtain ⟨v, hv, hrest⟩ := firstFiring_cons_eq_ok.1 hnone
    split at hrest
    · cases hrest
    · rename_i hskip
      obtain ⟨last, hlast, htrue⟩ := h
      cases rules with
      | nil =>
        have hrule : rule = last := by simpa using hlast
        rw [hrule, htrue] at hv
        cases hv
        exact hskip rfl
      | cons next rules =>
        rw [List.getLast?_cons_cons] at hlast
        exact ih ⟨last, hlast, htrue⟩ hrest

theorem fired_ne_none {policy : Policy} {r : Readings ε} {rules : List AutoRule}
    (h : EndsInTrue rules) : fired policy r rules ≠ .ok none := by
  intro hnone
  rcases fired_eq_ok.1 hnone with ⟨hfirst, -⟩ | ⟨_, _, _, _, hsome⟩
  · exact firstFiring_ne_none h hfirst
  · cases hsome

/-- The rules come to the same when their conditions and values do. -/
theorem fired_agreed {known : Prop} {policy policy' : Policy} {r : Readings ε} {r' : Readings ε'}
    {rules : List AutoRule}
    (hcondition : ∀ rule ∈ rules,
      ResultRel.agreed known Bool (rule.condition.eval policy r) (rule.condition.eval policy' r'))
    (hvalue : ∀ rule ∈ rules, ∃ x, rule.value.eval policy r = .ok x ∧
      rule.value.eval policy' r' = .ok x ∧ (known → x.isValid = true)) :
    ∃ o, fired policy r rules = .ok o ∧ fired policy' r' rules = .ok o ∧
      ∀ x, o = some x →
        (∃ rule ∈ rules, x.family = rule.value.family) ∧ (known → x.isValid = true) := by
  induction rules with
  | nil => exact ⟨none, rfl, rfl, by simp⟩
  | cons rule rules ih =>
    rw [List.forall_mem_cons] at hcondition hvalue
    obtain ⟨v, hv, hv', -⟩ := hcondition.1
    cases hholds : v.holds with
    | true =>
      obtain ⟨x, hx, hx', hvalid⟩ := hvalue.1
      have hfirst : firstFiring policy r (rule :: rules) = .ok (some rule.value) :=
        firstFiring_cons_eq_ok.2 ⟨v, hv, by rw [if_pos hholds]⟩
      have hfirst' : firstFiring policy' r' (rule :: rules) = .ok (some rule.value) :=
        firstFiring_cons_eq_ok.2 ⟨v, hv', by rw [if_pos hholds]⟩
      refine ⟨some x, fired_eq_ok.2 (.inr ⟨_, x, hfirst, hx, rfl⟩),
        fired_eq_ok.2 (.inr ⟨_, x, hfirst', hx', rfl⟩), fun y hy => ?_⟩
      cases hy
      exact ⟨⟨rule, List.mem_cons_self, Node.family_of_eval hx⟩, hvalid⟩
    | false =>
      obtain ⟨o, ho, ho', hfrom⟩ := ih hcondition.2 hvalue.2
      have hskip : firstFiring policy r (rule :: rules) = firstFiring policy r rules := by
        rw [firstFiring, hv]
        simp [bind, Except.bind, hholds]
      have hskip' : firstFiring policy' r' (rule :: rules) = firstFiring policy' r' rules := by
        rw [firstFiring, hv']
        simp [bind, Except.bind, hholds]
      refine ⟨o, by rw [fired, hskip]; exact ho, by rw [fired, hskip']; exact ho', ?_⟩
      intro x hx
      obtain ⟨⟨rule', hmem, hfamily⟩, hvalid⟩ := hfrom x hx
      exact ⟨⟨rule', List.mem_cons_of_mem _ hmem, hfamily⟩, hvalid⟩

/-! ## Reading parameters -/

/-- The kind takes all values of the type, and the results of all trees for it. -/
structure Kind.Takes {α : Type} (kind : Kind α) (wrap : Evaluated α → Evaluation)
    (type : ParamType) : Prop where
  faithful : kind.Faithful wrap
  value : ∀ v : Value, v.type = type → ∃ x, kind.ofValue? v = some x
  result : ∀ x : Evaluation, x.family = type.family → ∃ v, x = wrap v
  isValid : ∀ v, (wrap v).isValid = v.isValid

theorem Kind.number_takes {type : ParamType} {t : NumType} (h : type.numType? = some t) :
    Kind.number.Takes .num type where
  faithful := Kind.number_faithful
  value v hv := by
    subst hv
    cases v <;> simp_all [Value.type, ParamType.numType?, Kind.number]
  result x hx := by
    cases type <;> cases x <;>
      simp_all [ParamType.numType?, ParamType.family, Evaluation.family]
  isValid _ := rfl

theorem Kind.string_takes : Kind.string.Takes .string .string where
  faithful := Kind.string_faithful
  value v hv := by cases v <;> simp_all [Value.type, Kind.string]
  result x hx := by cases x <;> simp_all [ParamType.family, Evaluation.family]
  isValid _ := rfl

theorem Kind.boolean_takes : Kind.boolean.Takes .bool .bool where
  faithful := Kind.boolean_faithful
  value v hv := by cases v <;> simp_all [Value.type, Kind.boolean]
  result x hx := by cases x <;> simp_all [ParamType.family, Evaluation.family]
  isValid _ := rfl

namespace Context

/-- Another context for the same trees: parameters may have come behind the others, and where
everything is `known` invalid operands may be dealt with in another way. -/
structure Beside (known : Prop) (ctx ctx' : Context) : Prop where
  params : ctx.params <+: ctx'.params
  assignment : ctx'.assignment = ctx.assignment
  policy : ctx'.policy = ctx.policy ∨ known

/-- All that it takes for a parameter to read as a valid value: one from a list has one of its
values, and a computed one has a rule for every case and divides no integer. -/
structure Determines (ctx : Context) (pid : ParamId) (p : Param) : Prop where
  assigned : p.isAuto = false →
    ∃ vid, ctx.assignment.get? pid = some (.value vid) ∧ vid < p.values.length
  covered : p.isAuto = true → EndsInTrue p.rules
  condition : ∀ rule ∈ p.rules, (Node.constraint rule.condition).DividesNoInt
  value : ∀ rule ∈ p.rules, rule.value.DividesNoInt

variable {known : Prop} {ctx ctx' : Context} {pid : ParamId} {p : Param}

theorem Beside.refl (ctx : Context) : ctx.Beside known ctx :=
  ⟨List.prefix_rfl, rfl, .inl rfl⟩

theorem Beside.getElem? (h : ctx.Beside known ctx') (hp : ctx.params[pid]? = some p) :
    ctx'.params[pid]? = some p :=
  getElem?_mono h.params hp

section

variable {fail : EvalError → ε} {enter : ParamId → Except ε (Readings ε)}
  {fail' : EvalError → ε'} {enter' : ParamId → Except ε' (Readings ε')} {earlier : Params}

/-- A parameter from a list of values holds some of its type. -/
theorem chosen?_type {values : List DomainValue} {value : Value}
    (htype : ∀ v ∈ values, v.value.type = p.type) (h : ctx.chosen? pid values = some value) :
    value.type = p.type := by
  obtain ⟨vid, -, hmap⟩ := Option.bind_eq_some_iff.1 h
  obtain ⟨v, hget, rfl⟩ := Option.map_eq_some_iff.1 hmap
  exact htype v (List.mem_of_getElem? hget)

/-- What holds of the readings in every kind that takes the type holds of those as the type. -/
theorem readAs_of_read {type : ParamType} {Q : Evaluation → Prop}
    (h : ∀ {α : Type} [Inhabited α] {kind : Kind α} {wrap : Evaluated α → Evaluation},
      kind.Takes wrap type → ∃ v, ctx.read kind fail enter pid = .ok v ∧
        ctx'.read kind fail' enter' pid = .ok v ∧ Q (wrap v)) :
    ∃ x, ctx.readAs type fail enter pid = .ok x ∧ ctx'.readAs type fail' enter' pid = .ok x ∧
      Q x := by
  cases type with
  | int =>
    obtain ⟨v, hv, hv', hq⟩ := h (Kind.number_takes rfl)
    exact ⟨.num v, map_eq_ok.2 ⟨v, hv, rfl⟩, map_eq_ok.2 ⟨v, hv', rfl⟩, hq⟩
  | double =>
    obtain ⟨v, hv, hv', hq⟩ := h (Kind.number_takes rfl)
    exact ⟨.num v, map_eq_ok.2 ⟨v, hv, rfl⟩, map_eq_ok.2 ⟨v, hv', rfl⟩, hq⟩
  | string =>
    obtain ⟨v, hv, hv', hq⟩ := h Kind.string_takes
    exact ⟨.string v, map_eq_ok.2 ⟨v, hv, rfl⟩, map_eq_ok.2 ⟨v, hv', rfl⟩, hq⟩
  | bool =>
    obtain ⟨v, hv, hv', hq⟩ := h Kind.boolean_takes
    exact ⟨.bool v, map_eq_ok.2 ⟨v, hv, rfl⟩, map_eq_ok.2 ⟨v, hv', rfl⟩, hq⟩

/-- Inside the rules of a computed parameter, those before it read the same. -/
def Entered (known : Prop) (earlier : Params) (enter : ParamId → Except ε (Readings ε))
    (enter' : ParamId → Except ε' (Readings ε')) (pid : ParamId) (p : Param) : Prop :=
  p.isAuto = true → ∃ inner inner', enter pid = .ok inner ∧ enter' pid = .ok inner' ∧
    ∀ u : Use, u.Fits earlier → (ResultRel.agreed known).At inner inner' u

variable (hbeside : ctx.Beside known ctx') (hp : ctx.params[pid]? = some p)
  (hover : p.Over earlier) (hdet : known → ctx.Determines pid p)
  (henter : Entered known earlier enter enter' pid p)
include hbeside hp hover hdet henter

/-- A parameter reads the same if, where it is computed, what its rules read does. -/
theorem read_agreed {α : Type} [Inhabited α] {kind : Kind α} {wrap : Evaluated α → Evaluation}
    (hk : kind.Takes wrap p.type) :
    ResultRel.agreed known α (ctx.read kind fail enter pid) (ctx'.read kind fail' enter' pid) := by
  have hp' := hbeside.getElem? hp
  cases hauto : p.isAuto with
  | false =>
    have hd := Param.domain_of_static hauto
    have hsame : ctx'.chosen? pid p.values = ctx.chosen? pid p.values := by
      simp [chosen?, hbeside.assignment]
    cases hchosen : ctx.chosen? pid p.values with
    | none =>
      refine ⟨.invalid, read_of_unchosen hp hd hchosen,
        read_of_unchosen hp' hd (hsame.trans hchosen), fun hknown => ?_⟩
      obtain ⟨vid, hget, hlt⟩ := (hdet hknown).assigned hauto
      rw [chosen?_of_get? hget hlt] at hchosen
      cases hchosen
    | some value =>
      obtain ⟨x, hx⟩ := hk.value value (chosen?_type hover.value_type hchosen)
      exact ⟨.valid x, read_of_chosen hp hd hchosen hx,
        read_of_chosen hp' hd (hsame.trans hchosen) hx, fun _ => rfl⟩
  | true =>
    have hd := Param.domain_of_auto hauto
    obtain ⟨inner, inner', hi, hi', hanswers⟩ := henter hauto
    obtain ⟨o, ho, ho', hfrom⟩ : ∃ o, fired ctx.policy inner p.rules = .ok o ∧
        fired ctx'.policy inner' p.rules = .ok o ∧ ∀ x, o = some x →
          (∃ rule ∈ p.rules, x.family = rule.value.family) ∧ (known → x.isValid = true) := by
      refine fired_agreed (fun rule hmem => ?_) (fun rule hmem => ?_)
      · have hc := hover.condition rule hmem
        exact Constraint.eval_agreed hbeside.policy
          (fun hknown => (hdet hknown).condition rule hmem)
          fun u hu => hanswers u (hc.uses_fit u hu)
      · have hv := hover.value rule hmem
        exact Node.eval_agreed hbeside.policy
          (fun hknown => (hdet hknown).value rule hmem)
          fun u hu => hanswers u (hv.uses_fit u hu)
    cases o with
    | none =>
      refine ⟨.invalid,
        (read_auto_eq_ok hk.faithful hp hd).2 ⟨inner, none, hi, ho, .inl ⟨rfl, rfl⟩⟩,
        (read_auto_eq_ok hk.faithful hp' hd).2 ⟨inner', none, hi', ho', .inl ⟨rfl, rfl⟩⟩, ?_⟩
      exact fun hknown => absurd ho (fired_ne_none ((hdet hknown).covered hauto))
    | some x =>
      obtain ⟨⟨rule, hmem, hfamily⟩, hvalid⟩ := hfrom x rfl
      rw [hover.family rule hmem] at hfamily
      obtain ⟨v, rfl⟩ := hk.result x hfamily
      exact ⟨v, (read_auto_eq_ok hk.faithful hp hd).2 ⟨inner, _, hi, ho, .inr rfl⟩,
        (read_auto_eq_ok hk.faithful hp' hd).2 ⟨inner', _, hi', ho', .inr rfl⟩,
        fun hknown => hk.isValid v ▸ hvalid hknown⟩

theorem readInvalid_agreed :
    ResultRel.agreed known Bool (ctx.readInvalid fail enter pid)
      (ctx'.readInvalid fail' enter' pid) := by
  have hp' := hbeside.getElem? hp
  cases hauto : p.isAuto with
  | false =>
    have hd := Param.domain_of_static hauto
    rw [readInvalid_values hp hd, readInvalid_values hp' hd, hbeside.assignment]
    cases hget : ctx.assignment.get? pid with
    | none =>
      refine ⟨_, rfl, rfl, fun hknown => ?_⟩
      obtain ⟨vid, hsome, -⟩ := (hdet hknown).assigned hauto
      rw [hget] at hsome
      cases hsome
    | some slot => cases slot <;> exact ⟨_, rfl, rfl, fun _ => rfl⟩
  | true =>
    have hd := Param.domain_of_auto hauto
    obtain ⟨x, hx, hx', -⟩ : ∃ x, ctx.readAs p.type fail enter pid = .ok x ∧
        ctx'.readAs p.type fail' enter' pid = .ok x ∧ True := by
      refine readAs_of_read fun hk => ?_
      obtain ⟨v, hv, hv', -⟩ := read_agreed hbeside hp hover hdet henter hk
      exact ⟨v, hv, hv', trivial⟩
    exact ⟨_, (readInvalid_auto_eq_ok hp hd).2 ⟨x, hx, rfl⟩,
      (readInvalid_auto_eq_ok hp' hd).2 ⟨x, hx', rfl⟩, fun _ => rfl⟩

end

variable (hbeside : ctx.Beside known ctx') (hl : ctx.params.Layered)
  (hdet : known → ∀ pid p, ctx.params[pid]? = some p → ctx.Determines pid p)
include hbeside hl hdet

/-- The induction is on how many of the parameters count. What carries it is that those which are
being resolved come after them. -/
theorem resolving_agreed (k : Nat) :
    ∀ busy : List ParamId, (∀ b ∈ busy, k ≤ b) → ∀ u : Use, u.Fits (ctx.params.take k) →
      (ResultRel.agreed known).At (ctx.resolving busy) (ctx'.resolving busy) u := by
  induction k using Nat.strongRecOn with
  | ind k ih =>
    rintro busy hbusy u ⟨p, hget, hu⟩
    obtain ⟨hlt, hp⟩ : u.pid < k ∧ ctx.params[u.pid]? = some p := by
      rw [List.getElem?_take] at hget
      split at hget
      · exact ⟨‹_›, hget⟩
      · cases hget
    have hover := hl u.pid p hp
    have hdet := fun hknown => hdet hknown u.pid p hp
    have henter : Entered known (ctx.params.take u.pid) (ctx.entering busy) (ctx'.entering busy)
        u.pid p := by
      intro hauto
      have hd := Param.domain_of_auto hauto
      have hnot : u.pid ∉ busy := fun hmem => Nat.not_le.2 hlt (hbusy _ hmem)
      refine ⟨_, _, entering_of_not_mem hp hd hnot,
        entering_of_not_mem (hbeside.getElem? hp) hd hnot, ih u.pid hlt _ fun b hb => ?_⟩
      rcases List.mem_cons.1 hb with rfl | hb
      · exact Nat.le_refl _
      · exact Nat.le_trans (Nat.le_of_lt hlt) (hbusy b hb)
    rw [resolving_eq, resolving_eq]
    cases u with
    | number pid type =>
      exact read_agreed hbeside hp hover hdet henter (Kind.number_takes hu)
    | string pid => exact read_agreed hbeside hp hover hdet henter (hu ▸ Kind.string_takes)
    | truth pid => exact read_agreed hbeside hp hover hdet henter (hu ▸ Kind.boolean_takes)
    | validity pid => exact readInvalid_agreed hbeside hp hover hdet henter

/-- Over layered parameters an assembled tree evaluates to the same result, and to a valid one where
everything is known. -/
theorem node_agreed {n : Node} (hn : Assembled ctx.params n) (hops : known → n.DividesNoInt) :
    ∃ x, ctx.node n = .ok x ∧ ctx'.node n = .ok x ∧ (known → x.isValid = true) := by
  refine Node.eval_agreed hbeside.policy hops fun u hu => ?_
  refine resolving_agreed hbeside hl hdet ctx.params.length [] (by simp) u ?_
  rw [List.take_length]
  exact hn.uses_fit u hu

theorem constraint_agreed {c : Constraint} (hc : Assembled ctx.params (.constraint c))
    (hops : known → (Node.constraint c).DividesNoInt) :
    ∃ v, ctx.constraint c = .ok v ∧ ctx'.constraint c = .ok v ∧ (known → v.isValid = true) := by
  obtain ⟨x, hx, hx', hvalid⟩ := node_agreed hbeside hl hdet hc hops
  obtain ⟨v, hv, rfl⟩ := map_eq_ok.1 hx
  obtain ⟨v', hv', hsame⟩ := map_eq_ok.1 hx'
  cases hsame
  exact ⟨v, hv, hv', hvalid⟩

omit hbeside hdet

/-- Over layered parameters every assembled tree evaluates to a result. -/
theorem node_total {n : Node} (hn : Assembled ctx.params n) : ∃ x, ctx.node n = .ok x := by
  obtain ⟨x, hx, -⟩ := node_agreed (Beside.refl ctx) hl False.elim hn False.elim
  exact ⟨x, hx⟩

theorem constraint_total {c : Constraint} (hc : Assembled ctx.params (.constraint c)) :
    ∃ v, ctx.constraint c = .ok v := by
  obtain ⟨v, hv, -⟩ := constraint_agreed (Beside.refl ctx) hl False.elim hc False.elim
  exact ⟨v, hv⟩

end Context

end TWay
