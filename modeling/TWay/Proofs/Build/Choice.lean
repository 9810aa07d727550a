import TWay.Proofs.Build.Change
import TWay.Proofs.Eval.Chosen

/-!
# Values found by their spelling

A parameter that is declared from literals can be counted on under its name. Whatever is called for
afterwards, a spelling finds the first value that has it, and the tree that reads the parameter
comes to the value that is chosen (`choice_reads_back`). A name is looked up among the parameters
and a spelling among the values; the places agree because later parameters come behind the others
and the values stand where their literals do.
-/

namespace TWay

variable {L : Type} [Logger L] {b : Builder L} {keyword name : String} {values : List Node}
  {pid : ParamId} {p : Param}

/-! ## The declared parameter -/

namespace Build

theorem staticParam_name (h : (staticParam keyword name values).result = .ok p) :
    p.name = name := by
  obtain ⟨type, -, ⟨-, rfl⟩ | ⟨-, -, rfl⟩⟩ := staticParam_eq_ok.1 h <;> rfl

theorem staticParam_static (h : (staticParam keyword name values).result = .ok p) :
    p.isAuto = false := by
  obtain ⟨type, -, ⟨-, rfl⟩ | ⟨-, -, rfl⟩⟩ := staticParam_eq_ok.1 h <;> rfl

/-- The values stand at the places of the literals; a boolean parameter does not go by them. -/
theorem staticParam_values (h : (staticParam keyword name values).result = .ok p) :
    (p.type ≠ .bool → p.values = values.map (.ofLiteral p.type)) ∧
      (p.type = .bool → p.values = (Param.boolean name).values) := by
  obtain ⟨type, -, ⟨rfl, rfl⟩ | ⟨htype, -, rfl⟩⟩ := staticParam_eq_ok.1 h
  · exact ⟨fun hne => absurd rfl hne, fun _ => rfl⟩
  · exact ⟨fun _ => rfl, fun heq => absurd heq htype⟩

end Build

namespace Builder

/-- A declared parameter stays the one of its name. -/
theorem exists_of_declare
    (h : (b.call (.step (.declare keyword name values))).1 = .ok (.pid pid)) (after : List Call) :
    let d := ((b.call (.step (.declare keyword name values))).2.run after).2.draft
    ∃ p, (Build.staticParam keyword name values).result = .ok p ∧ d.params[pid]? = some p ∧
      d.params.idOf? name = some pid := by
  intro d
  obtain ⟨pid', hdeclare, heq⟩ := Step.map_gives.1 (call_step_eq_ok.1 h)
  cases heq
  obtain ⟨p, hp, hadd⟩ := Step.declare_gives.1 hdeclare
  obtain ⟨hnew, rfl, hdraft⟩ := Step.addParam_gives.1 hadd
  have hle : b.draft.params ++ [p] <+: d.params := by
    have hgrows := (run_grows after (b.call (.step (.declare keyword name values))).2).params
    rwa [hdraft] at hgrows
  refine ⟨p, hp, getElem?_mono hle List.getElem?_concat_length, ?_⟩
  rw [← Build.staticParam_name hp]
  exact Params.idOf?_mono hle (Params.idOf?_append_new hnew)

theorem call_choice_eq_ok {v : Node} {c : Option Choice} :
    (b.call (.step (.choice name v))).1 = .ok (.choice c) ↔
      (b.draft.choice? name v).result = .ok c := by
  rw [call_reads_eq_ok rfl]
  simp

theorem call_reference_eq_ok {n : Node} :
    (b.call (.step (.reference name))).1 = .ok (.node n) ↔
      (b.draft.reference name).result = .ok n := by
  rw [call_reads_eq_ok rfl]
  simp

end Builder

/-- A parameter that is declared from literals can be chosen from and read back. Let it be declared
in any state of a builder, and let calls follow. A spelling then gives a choice exactly when it is
not empty and one of those in the domain, which is a choice of the parameter that the name finds,
and of the first value that is spelled so. Under every assignment that chooses a value of the
parameter, the tree that reads it comes to a valid result, which is this value. For an integer from
a list of integers that is the integer of the literal at this place. -/
theorem choice_reads_back
    (h : (b.call (.step (.declare keyword name values))).1 = .ok (.pid pid)) (after : List Call) :
    let b' := ((b.call (.step (.declare keyword name values))).2.run after).2
    let params := b'.draft.params
    ∃ p, params[pid]? = some p ∧ params.idOf? name = some pid ∧
      (p.type ≠ .bool → p.values = values.map (.ofLiteral p.type)) ∧
      (p.type = .bool → p.values = (Param.boolean name).values) ∧
      (∀ v : Node,
        ((∃ c, (b'.call (.step (.choice name v))).1 = .ok (.choice (some c))) ↔
          v.text ≠ "" ∧ v.text ∈ p.values.map DomainValue.text) ∧
        ∀ c, (b'.call (.step (.choice name v))).1 = .ok (.choice (some c)) →
          c.pid = pid ∧ p.FirstSpelled v.text c.vid) ∧
      (b'.call (.step (.reference name))).1 = .ok (.node (p.type.reference pid)) ∧
      ∀ vid entry, p.values[vid]? = some entry →
        ∀ a policy, Assignment.get? a pid = some (.value vid) →
          Context.node ⟨params, a, policy⟩ (p.type.reference pid) = .ok entry.value.evaluation ∧
          ∀ i text, p.type = .int → values[vid]? = some (.arith (.int i text)) →
            Context.int ⟨params, a, policy⟩ (.param pid .int) = .ok (.valid i) := by
  intro b' params
  obtain ⟨p, hstatic, hp, hid⟩ := Builder.exists_of_declare h after
  obtain ⟨hlisted, hboth⟩ := Build.staticParam_values hstatic
  have hchoice (v : Node) (c : Choice) :
      (b'.call (.step (.choice name v))).1 = .ok (.choice (some c)) ↔
        v.text ≠ "" ∧ c.pid = pid ∧ p.FirstSpelled v.text c.vid := by
    rw [Builder.call_choice_eq_ok, Draft.choice?_eq_ok_some]
    refine and_congr_right fun _ => ?_
    constructor
    · rintro ⟨q, hpid, hq, -, hfirst⟩
      cases hid.symm.trans hpid
      cases hp.symm.trans hq
      exact ⟨rfl, hfirst⟩
    · rintro ⟨rfl, hfirst⟩
      exact ⟨p, hid, hp, Build.staticParam_static hstatic, hfirst⟩
  refine ⟨p, hp, hid, hlisted, hboth, fun v => ⟨?_, fun c hc => ((hchoice v c).1 hc).2⟩, ?_, ?_⟩
  · rw [← Param.exists_firstSpelled]
    constructor
    · rintro ⟨c, hc⟩
      obtain ⟨htext, -, hfirst⟩ := (hchoice v c).1 hc
      exact ⟨htext, c.vid, hfirst⟩
    · rintro ⟨htext, vid, hfirst⟩
      exact ⟨⟨pid, vid⟩, (hchoice v ⟨pid, vid⟩).2 ⟨htext, rfl, hfirst⟩⟩
  · exact Builder.call_reference_eq_ok.2 (Draft.reference_eq_ok.2 ⟨pid, p, hid, hp, rfl⟩)
  · intro vid entry hentry a policy hget
    have hover : p.Over [] := Build.staticParam_over hstatic
    have htype := hover.value_type entry (List.mem_of_getElem? hentry)
    have hnode : Context.node ⟨params, a, policy⟩ (p.type.reference pid) =
        .ok entry.value.evaluation := Context.node_reference_of_chosen hp hentry htype hget
    refine ⟨hnode, fun i text hint hliteral => ?_⟩
    have hplace := hlisted (by simp [hint])
    rw [hplace, List.getElem?_map, hliteral, hint] at hentry
    cases hentry
    rw [hint] at hnode
    exact Context.int_of_node hnode

/-- A list in which a spelling is repeated. -/
theorem choice_reads_back_repeated :
    let values : List Node := [.arith (.int 7 "7"), .arith (.int 8 "8"), .arith (.int 9 "7")]
    let declare : Call := .step (.declare "int" "a" values)
    let seven : Node := .string (.const "7")
    let b : Builder MessageLog := .new
    let b' := ((b.call declare).2.run [.step (.declare "bool" "b" [])]).2
    (b.call declare).1 = .ok (.pid 0) ∧
      (∃ c, (b'.call (.step (.choice "a" seven))).1 = .ok (.choice (some c)) ∧ c.pid = 0) ∧
      ∀ policy, Context.int ⟨b'.draft.params, .ofChoices [⟨0, 1⟩], policy⟩ (.param 0 .int) =
        .ok (.valid 8) := by
  intro values declare seven b b'
  have hdeclare : (b.call declare).1 = .ok (.pid 0) := rfl
  obtain ⟨p, hp, -, -, -, hchoice, -, hread⟩ :=
    choice_reads_back hdeclare [.step (.declare "bool" "b" [])]
  have hp' : b'.draft.params[0]? =
      some ⟨"a", .int, .values (values.map (.ofLiteral .int)), false⟩ := rfl
  cases hp'.symm.trans hp
  obtain ⟨hspelled, hfound⟩ := hchoice seven
  obtain ⟨c, hc⟩ := hspelled.2 (by decide)
  refine ⟨hdeclare, ⟨c, hc, (hfound c hc).1⟩, fun policy => ?_⟩
  exact (hread 1 ⟨"8", .int 8⟩ rfl (.ofChoices [⟨0, 1⟩]) policy rfl).2 8 "8" rfl rfl

end TWay
