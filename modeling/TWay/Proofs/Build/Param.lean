import TWay.Build.Param
import TWay.Proofs.Build.Tree

/-!
# What the builders of parameters give

A parameter from a list of literals has the values that they stand for in its type, and a computed
one has the rules it is given. Both are parameters over those before them.
-/

namespace TWay

/-! ## Values -/

theorem Value.ofText_type (type : ParamType) (text : String) :
    (Value.ofText type text).type = type := by
  cases type <;> rfl

/-- A literal is forced into the type. -/
theorem Value.ofLiteral_type (type : ParamType) (n : Node) :
    (Value.ofLiteral type n).type = type := by
  unfold ofLiteral
  split
  · rfl
  · rfl
  · rfl
  · rfl
  · exact ofText_type type n.text

namespace Build

variable {type : ParamType} {keyword name : String} {p : Param}

theorem domainValue_result {n : Node} (h : n.isLiteral = true) :
    (domainValue type name n).result = .ok (.ofLiteral type n) := by
  simp only [domainValue, h]
  cases (LiteralKind.ofNode n).fits type <;> simp

theorem domainValue_eq_ok {n : Node} {v : DomainValue} :
    (domainValue type name n).result = .ok v ↔ n.isLiteral = true ∧ v = .ofLiteral type n := by
  cases h : n.isLiteral with
  | false => simp [domainValue, h]
  | true =>
    rw [domainValue_result h]
    constructor
    · intro hv
      cases hv
      exact ⟨rfl, rfl⟩
    · rintro ⟨-, rfl⟩
      rfl

theorem domainValues_eq_ok {ns : List Node} {vs : List DomainValue} :
    (domainValues type name ns).result = .ok vs ↔
      (∀ n ∈ ns, n.isLiteral = true) ∧ vs = ns.map (.ofLiteral type) := by
  induction ns generalizing vs with
  | nil =>
    constructor
    · intro h
      cases h
      simp
    · rintro ⟨-, rfl⟩
      rfl
  | cons n ns ih =>
    simp only [domainValues, Attempt.result_bind, Attempt.result_pure, bind_eq_ok,
      domainValue_eq_ok, ih, List.forall_mem_cons, List.map_cons]
    constructor
    · rintro ⟨v, ⟨hn, rfl⟩, rest, ⟨hns, rfl⟩, h⟩
      cases h
      exact ⟨⟨hn, hns⟩, rfl⟩
    · rintro ⟨⟨hn, hns⟩, rfl⟩
      exact ⟨_, ⟨hn, rfl⟩, _, ⟨hns, rfl⟩, rfl⟩

/-- A parameter from a list of values is boolean, or has what the literals stand for. -/
theorem staticParam_eq_ok {ns : List Node} :
    (staticParam keyword name ns).result = .ok p ↔
      ∃ type, paramType keyword = .ok type ∧
        (type = .bool ∧ p = .boolean name ∨
          type ≠ .bool ∧ (∀ n ∈ ns, n.isLiteral = true) ∧
            p = { name, type, domain := .values (ns.map (.ofLiteral type)) }) := by
  simp only [staticParam, Attempt.result_bind, Attempt.result_liftM, bind_eq_ok]
  refine exists_congr fun type => and_congr_right fun _ => ?_
  cases type with
  | bool =>
    simp only
    split <;> simp [eq_comm (a := p)]
  | int | double | string =>
    simp only [Attempt.result_bind, Attempt.result_pure, bind_eq_ok, domainValues_eq_ok]
    constructor
    · rintro ⟨vs, ⟨hns, rfl⟩, h⟩
      cases h
      exact .inr ⟨by simp, hns, rfl⟩
    · rintro (⟨h, -⟩ | ⟨-, hns, rfl⟩)
      · cases h
      · exact ⟨_, ⟨hns, rfl⟩, rfl⟩

theorem autoRules_eq_ok {position : Nat} {rules : List (Node × Node)} {built : List AutoRule} :
    (autoRules type name position rules).result = .ok built ↔
      rules = built.map (fun rule => (.constraint rule.condition, rule.value)) ∧
        ∀ rule ∈ built, rule.value.family = type.family := by
  induction rules generalizing position built with
  | nil => cases built <;> simp [autoRules]
  | cons rule rules ih =>
    obtain ⟨condition, value⟩ := rule
    simp only [autoRules, autoRule, Attempt.bind_eq_ok, Node.expectConstraint_eq_ok, ih,
      Attempt.pure_eq_ok]
    constructor
    · rintro ⟨first, ⟨c, rfl, hfirst⟩, rest, ⟨rfl, hrest⟩, rfl⟩
      split at hfirst
      · rename_i hfamily
        cases Attempt.pure_eq_ok.1 hfirst
        exact ⟨rfl, List.forall_mem_cons.2 ⟨hfamily, hrest⟩⟩
      · cases hfirst
    · intro h
      cases built with
      | nil => simp at h
      | cons first rest =>
        simp only [List.map_cons, List.cons.injEq, Prod.mk.injEq, List.forall_mem_cons] at h
        obtain ⟨⟨⟨rfl, rfl⟩, rfl⟩, hfamily, hrest⟩ := h
        exact ⟨first, ⟨first.condition, rfl, by rw [if_pos hfamily]; rfl⟩, rest, ⟨rfl, hrest⟩, rfl⟩

/-- A computed parameter has the rules it is given, whatever is said of them. -/
theorem autoParam_eq_ok {rules : List (Node × Node)} :
    (autoParam keyword name rules).result = .ok p ↔
      ∃ type built, paramType keyword = .ok type ∧
        (autoRules type name 1 rules).result = .ok built ∧
          p = { name, type, domain := .auto built } := by
  simp only [autoParam, Attempt.result_bind, Attempt.result_liftM, bind_eq_ok]
  split <;>
    simp only [Attempt.result_bind, Attempt.result_warn, Attempt.result_pure, ok_bind, bind_eq_ok,
      Except.ok.injEq, exists_and_left, eq_comm (a := p)]

end Build

/-! ## Parameters over others -/

variable {others : Params} {keyword name : String} {p : Param}

theorem Param.boolean_over : (Param.boolean name).Over others where
  value_type v hv := by
    obtain ⟨text, -, rfl⟩ := List.mem_map.1 hv
    exact Value.ofText_type .bool text
  condition rule hrule := by cases hrule
  value rule hrule := by cases hrule
  family rule hrule := by cases hrule

theorem Build.staticParam_over {ns : List Node}
    (h : (Build.staticParam keyword name ns).result = .ok p) : p.Over others := by
  obtain ⟨type, -, ⟨-, rfl⟩ | ⟨-, -, rfl⟩⟩ := Build.staticParam_eq_ok.1 h
  · exact Param.boolean_over
  · constructor
    · intro v hv
      obtain ⟨n, -, rfl⟩ := List.mem_map.1 hv
      exact Value.ofLiteral_type type n
    all_goals
      intro rule hrule
      cases hrule

/-- What the rules are built from is what they hold. -/
theorem Build.autoParam_over {rules : List (Node × Node)}
    (hrules : ∀ rule ∈ rules, Assembled others rule.1 ∧ Assembled others rule.2)
    (h : (Build.autoParam keyword name rules).result = .ok p) : p.Over others := by
  obtain ⟨type, built, -, hbuilt, rfl⟩ := Build.autoParam_eq_ok.1 h
  obtain ⟨rfl, hfamily⟩ := Build.autoRules_eq_ok.1 hbuilt
  rw [List.forall_mem_map] at hrules
  exact ⟨fun v hv => (by cases hv), fun rule hrule => (hrules rule hrule).1,
    fun rule hrule => (hrules rule hrule).2, hfamily⟩

/-- A parameter as it comes out of one of the two builders, auxiliary or not. -/
def Param.IsBuilt (p : Param) : Prop :=
  ∃ q aux, p = { q with aux } ∧
    ((∃ keyword name ns, (Build.staticParam keyword name ns).result = .ok q) ∨
      ∃ keyword name rules, (Build.autoParam keyword name rules).result = .ok q)

theorem Param.IsBuilt.value_type (h : p.IsBuilt) : ∀ v ∈ p.values, v.value.type = p.type := by
  obtain ⟨q, aux, rfl, ⟨keyword, name, ns, hq⟩ | ⟨keyword, name, rules, hq⟩⟩ := h
  · have hover : q.Over [] := Build.staticParam_over hq
    exact hover.value_type
  · obtain ⟨type, built, -, -, rfl⟩ := Build.autoParam_eq_ok.1 hq
    intro v hv
    cases hv

end TWay
