import TWay.Proofs.Build.Param
import TWay.Proofs.Build.Step

/-!
# Runs that draw on themselves

A run is disciplined when all that is handed to a call is a literal, or has come out of a call
before it. In such a run whatever comes out is assembled over the parameters declared so far, and
stays so when more are declared (`run_sound`).
-/

namespace TWay

/-! ## What goes in and what comes out -/

/-- The trees that are handed to a step. -/
def Command.nodes : Command → List Node
  | arith _ lhs rhs | relation _ lhs rhs _ | logical _ lhs rhs => lhs.toList ++ rhs.toList
  | unaryArith _ a | cast a _ | unaryLogical _ a => a.toList
  | concat terms => terms
  | arithConstraint _ lhs rhs _ => (lhs.toList ++ rhs.toList).map .arith
  | stringConstraint _ lhs rhs => (lhs.toList ++ rhs.toList).map .string
  | staticParam _ _ values | declare _ _ values => values
  | autoParam _ _ rules | declareAuto _ _ rules => rules.flatMap fun (c, v) => [c, v]
  | setOption _ value | choice _ value => [value]
  | addConstraint c | addSeed (.constraint _ c) => [.constraint c]
  | record _ reason => [reason]
  | reference _ | boolLiteral _ | marker _ | addParam _ | addSeed (.tuple ..) | invalidations
  | defaultStrength _ | namedStrength .. => []

/-- The parameters that are handed to a step as they are. -/
def Command.params : Command → List Param
  | addParam p => [p]
  | _ => []

/-- The trees that are handed to a call. -/
def Call.nodes : Call → List Node
  | step command => command.nodes
  | _ => []

/-- The parameters that are handed to a call. -/
def Call.params : Call → List Param
  | step command => command.params
  | _ => []

/-- The trees that a step gives. -/
def Answer.nodes : Answer → List Node
  | node n => [n]
  | marker c => c.toList.map .constraint
  | constraints cs => cs.map .constraint
  | _ => []

/-- The parameters that a step gives. -/
def Answer.params : Answer → List Param
  | param p => [p]
  | _ => []

/-- The trees that a call gives. A step that stops halfway gives what it has. -/
def Outcome.nodes : Outcome → List Node
  | .ok a => a.nodes
  | .error (.halted h) => h.built.map .constraint
  | .error (.refused _) => []

/-- The parameters that a call gives. -/
def Outcome.params : Outcome → List Param
  | .ok a => a.params
  | .error _ => []

/-- Each tree is a literal or comes from an earlier call, and each parameter comes from one, where
it may have been auxiliary or not. -/
structure Call.DrawsOn (given : List Outcome) (call : Call) : Prop where
  nodes : ∀ n ∈ call.nodes, n.isLiteral = true ∨ ∃ o ∈ given, n ∈ o.nodes
  params : ∀ p ∈ call.params, ∃ o ∈ given, ∃ q ∈ o.params, ∃ aux, p = { q with aux }

/-- A call that is handed literals only draws on nothing. -/
theorem Call.DrawsOn.of_literals {given : List Outcome} {call : Call}
    (hnodes : call.nodes.all Node.isLiteral = true) (hparams : call.params = []) :
    call.DrawsOn given where
  nodes n hn := .inl (List.all_eq_true.1 hnodes n hn)
  params p hp := by simp [hparams] at hp

/-- What is true of literals and of all that has come out is true of what is handed in. -/
theorem Call.DrawsOn.holds {given : List Outcome} {call : Call} {Q : Node → Prop}
    {R : Param → Prop} (h : call.DrawsOn given) (hliteral : ∀ n : Node, n.isLiteral = true → Q n)
    (haux : ∀ p aux, R p → R { p with aux })
    (hgiven : ∀ o ∈ given, (∀ n ∈ o.nodes, Q n) ∧ ∀ p ∈ o.params, R p) :
    (∀ n ∈ call.nodes, Q n) ∧ ∀ p ∈ call.params, R p := by
  constructor
  · intro n hn
    rcases h.nodes n hn with hn | ⟨o, ho, hmem⟩
    · exact hliteral n hn
    · exact (hgiven o ho).1 n hmem
  · intro p hp
    obtain ⟨o, ho, q, hq, aux, rfl⟩ := h.params p hp
    exact haux q aux ((hgiven o ho).2 q hq)

/-- Each call draws on those before it. -/
def Builder.Disciplined {L : Type} [Logger L] : List Outcome → List Call → Builder L → Prop
  | _, [], _ => True
  | given, call :: calls, b =>
    call.DrawsOn given ∧ Disciplined (given ++ [(b.call call).1]) calls (b.call call).2

/-! ## Soundness -/

/-- All that a draft holds is assembled over its parameters. -/
structure Draft.Sound (d : Draft) : Prop where
  params : d.params.Layered
  constraints : ∀ c ∈ d.constraints, Assembled d.params (.constraint c)
  reasons : ∀ reason ∈ d.reasons, Assembled d.params reason.2

/-- All that comes out of a call is assembled over these parameters. -/
structure Outcome.Sound (params : Params) (o : Outcome) : Prop where
  nodes : ∀ n ∈ o.nodes, Assembled params n
  params : ∀ p ∈ o.params, p.Over params

theorem Outcome.Sound.mono {params params' : Params} (hle : params <+: params') {o : Outcome}
    (h : o.Sound params) : o.Sound params' where
  nodes n hn := (h.nodes n hn).mono hle
  params p hp := (h.params p hp).mono hle

theorem Outcome.sound_of_none {params : Params} {o : Outcome} (hnodes : o.nodes = [])
    (hparams : o.params = []) : o.Sound params where
  nodes n hn := by simp [hnodes] at hn
  params p hp := by simp [hparams] at hp

/-- A draft after another one, with the outcome of the step between them. -/
structure Draft.Leads (d : Draft) (o : Outcome) (d' : Draft) : Prop where
  le : d.params <+: d'.params
  sound : d'.Sound
  outcome : o.Sound d'.params

/-- Whatever a step gives is assembled, and the draft after it is sound. -/
def Step.Keeps (d : Draft) (step : Step Empty Answer) : Prop :=
  ∀ a d', step.Gives d a d' → d.Leads (.ok a) d'

namespace Draft.Sound

variable {d : Draft} (hd : d.Sound)
include hd

theorem reads {α : Type} {answer : α → Answer} {f : Draft → Attempt Empty BuildError α}
    (hf : ∀ x, (f d).result = .ok x → Outcome.Sound d.params (.ok (answer x))) :
    Step.Keeps d (answer <$> .reads f) := by
  intro a d' h
  obtain ⟨x, hreads, rfl⟩ := Step.map_gives.1 h
  obtain ⟨hx, rfl⟩ := Step.reads_gives.1 hreads
  exact ⟨List.prefix_rfl, hd, hf x hx⟩

theorem node {f : Draft → Attempt Empty BuildError Node}
    (hf : ∀ n, (f d).result = .ok n → Assembled d.params n) :
    Step.Keeps d (.node <$> .reads f) :=
  hd.reads fun n hn =>
    ⟨fun _ hm => List.mem_singleton.1 hm ▸ hf n hn, fun _ hp => (by cases hp)⟩

theorem constraint {f : Draft → Attempt Empty BuildError Constraint}
    (hf : ∀ c, (f d).result = .ok c → Assembled d.params (.constraint c)) :
    Step.Keeps d (.constraint <$> .reads f) :=
  hd.reads fun c hc =>
    ⟨fun _ hm => List.mem_singleton.1 hm ▸ hf c hc, fun _ hp => (by cases hp)⟩

theorem param {f : Draft → Attempt Empty BuildError Param}
    (hf : ∀ p, (f d).result = .ok p → p.Over d.params) :
    Step.Keeps d (.param <$> .reads f) :=
  hd.reads fun p hp =>
    ⟨fun _ hm => (by cases hm), fun _ hq => List.mem_singleton.1 hq ▸ hf p hp⟩

/-- What is said of the parameters before it holds of one that is declared last. -/
theorem addParam {p : Param} (hp : p.Over d.params) : Step.Keeps d (.pid <$> .addParam p) := by
  intro a d' h
  obtain ⟨pid, hadd, rfl⟩ := Step.map_gives.1 h
  obtain ⟨-, -, rfl⟩ := Step.addParam_gives.1 hadd
  have hle : d.params <+: d.params ++ [p] := List.prefix_append ..
  exact ⟨hle,
    ⟨hd.params.snoc hp, fun c hc => (hd.constraints c hc).mono hle,
      fun r hr => (hd.reasons r hr).mono hle⟩,
    Outcome.sound_of_none rfl rfl⟩

theorem declare {x : Attempt Empty BuildError Param} (hx : ∀ p, x.result = .ok p → p.Over d.params) :
    Step.Keeps d (.pid <$> .declare x) := by
  intro a d' h
  obtain ⟨pid, hdeclare, rfl⟩ := Step.map_gives.1 h
  obtain ⟨p, hp, hadd⟩ := Step.declare_gives.1 hdeclare
  exact hd.addParam (hx p hp) _ d' (Step.map_gives.2 ⟨pid, hadd, rfl⟩)

theorem invalidations {built : List Constraint} (h : d.Builds built) :
    ∀ c ∈ built, Assembled d.params (.constraint c) := by
  refine Draft.built_holds (fun c hc => .not hc) (fun op lhs rhs hl hr => .logic hl hr) ?_ ?_ h
  · exact fun pid p hp => .marker hp
  · exact fun pid c hmem => hd.reasons _ hmem

end Draft.Sound

/-- A draft whose parameters, constraints and reasons are as before is as sound as before. -/
theorem Draft.Sound.leads {d d' : Draft} (hd : d.Sound) {a : Answer}
    (hparams : d'.params = d.params) (hconstraints : d'.constraints = d.constraints)
    (hreasons : d'.reasons = d.reasons) (ha : a.nodes = [] ∧ a.params = []) :
    d.Leads (.ok a) d' where
  le := hparams ▸ List.prefix_rfl
  sound :=
    ⟨hparams ▸ hd.params, hconstraints ▸ hparams ▸ hd.constraints,
      hreasons ▸ hparams ▸ hd.reasons⟩
  outcome := Outcome.sound_of_none ha.1 ha.2

theorem forall_mem_operands {α : Type} {lhs rhs : Option α} {P : α → Prop} :
    (∀ x ∈ lhs.toList ++ rhs.toList, P x) ↔ (∀ x ∈ lhs, P x) ∧ ∀ x ∈ rhs, P x := by
  simp only [List.forall_mem_append, Option.mem_toList, Option.mem_def]

theorem forall_mem_rules {rules : List (Node × Node)} {P : Node → Prop}
    (h : ∀ n ∈ rules.flatMap fun (c, v) => [c, v], P n) : ∀ rule ∈ rules, P rule.1 ∧ P rule.2 :=
  fun rule hrule =>
    ⟨h rule.1 (List.mem_flatMap.2 ⟨rule, hrule, by simp⟩),
      h rule.2 (List.mem_flatMap.2 ⟨rule, hrule, by simp⟩)⟩

/-- Every step that succeeds keeps a draft sound, and so is what it gives. -/
theorem Command.attempt_keeps {d : Draft} (hd : d.Sound) (command : Command)
    (hnodes : ∀ n ∈ command.nodes, Assembled d.params n)
    (hparams : ∀ p ∈ command.params, p.Over d.params) : Step.Keeps d command.attempt := by
  cases command with
  | reference name =>
    refine hd.node fun n hn => ?_
    obtain ⟨pid, p, -, hp, rfl⟩ := Draft.reference_eq_ok.1 hn
    exact .reference hp
  | boolLiteral text => exact hd.constraint fun c hc => Build.boolLiteral_assembled hc
  | arith op lhs rhs =>
    obtain ⟨hl, hr⟩ := forall_mem_operands.1 hnodes
    exact hd.node fun n hn => Build.arith_assembled hl hr hn
  | unaryArith op a =>
    have ha : ∀ m ∈ a, Assembled d.params m := fun m hm => hnodes m (Option.mem_toList.2 hm)
    exact hd.node fun n hn => Build.unaryArith_assembled ha hn
  | cast a target =>
    have ha : ∀ m ∈ a, Assembled d.params m := fun m hm => hnodes m (Option.mem_toList.2 hm)
    exact hd.node fun n hn => Build.cast_assembled ha hn
  | concat terms => exact hd.node fun n hn => Build.concat_assembled hnodes hn
  | relation op lhs rhs token =>
    obtain ⟨hl, hr⟩ := forall_mem_operands.1 hnodes
    exact hd.constraint fun c hc => Build.relation_assembled hl hr hc
  | arithConstraint op lhs rhs precision =>
    obtain ⟨hl, hr⟩ := forall_mem_operands.1 (List.forall_mem_map.1 hnodes)
    exact hd.constraint fun c hc => Build.arithConstraint_assembled hl hr hc
  | stringConstraint op lhs rhs =>
    obtain ⟨hl, hr⟩ := forall_mem_operands.1 (List.forall_mem_map.1 hnodes)
    exact hd.constraint fun c hc => Build.stringConstraint_assembled hl hr hc
  | logical op lhs rhs =>
    obtain ⟨hl, hr⟩ := forall_mem_operands.1 hnodes
    exact hd.constraint fun c hc => Build.logical_assembled hl hr hc
  | unaryLogical op a =>
    have ha : ∀ m ∈ a, Assembled d.params m := fun m hm => hnodes m (Option.mem_toList.2 hm)
    exact hd.constraint fun c hc => Build.unaryLogical_assembled ha hc
  | marker name =>
    refine hd.reads fun c hc => ⟨fun n hn => ?_, fun p hp => (by cases hp)⟩
    rw [Draft.marker?_eq_ok] at hc
    cases hid : d.params.idOf? name with
    | none => simp [hc, hid, Outcome.nodes, Answer.nodes] at hn
    | some pid =>
      obtain ⟨p, hp⟩ := Params.exists_of_idOf? hid
      simp [hc, hid, Outcome.nodes, Answer.nodes] at hn
      exact hn ▸ .marker hp
  | staticParam type name values => exact hd.param fun p hp => Build.staticParam_over hp
  | autoParam type name rules =>
    exact hd.param fun p hp => Build.autoParam_over (forall_mem_rules hnodes) hp
  | declare type name values => exact hd.declare fun p hp => Build.staticParam_over hp
  | declareAuto type name rules =>
    exact hd.declare fun p hp => Build.autoParam_over (forall_mem_rules hnodes) hp
  | addParam p => exact hd.addParam (hparams p (List.mem_singleton.2 rfl))
  | setOption name value =>
    intro a d' h
    obtain ⟨u, hset, rfl⟩ := Step.map_gives.1 h
    obtain ⟨options, rfl⟩ := Step.setOption_gives hset
    exact hd.leads rfl rfl rfl ⟨rfl, rfl⟩
  | addConstraint c =>
    intro a d' h
    obtain ⟨u, hadd, rfl⟩ := Step.map_gives.1 h
    cases Step.modify_gives.1 hadd
    have hc : Assembled d.params (.constraint c) := hnodes _ (List.mem_singleton.2 rfl)
    refine ⟨List.prefix_rfl, ⟨hd.params, ?_, hd.reasons⟩, Outcome.sound_of_none rfl rfl⟩
    exact List.forall_mem_append.2 ⟨hd.constraints, List.forall_mem_singleton.2 hc⟩
  | choice name value => exact hd.reads fun c hc => Outcome.sound_of_none rfl rfl
  | addSeed seed =>
    intro a d' h
    obtain ⟨u, hadd, rfl⟩ := Step.map_gives.1 h
    cases Step.modify_gives.1 hadd
    exact hd.leads rfl rfl rfl ⟨rfl, rfl⟩
  | record names reason =>
    intro a d' h
    obtain ⟨u, hrecord, rfl⟩ := Step.map_gives.1 h
    cases Step.record_gives.1 hrecord
    refine ⟨List.prefix_rfl, ⟨hd.params, hd.constraints, ?_⟩, Outcome.sound_of_none rfl rfl⟩
    refine List.forall_mem_append.2 ⟨hd.reasons, fun r hr => ?_⟩
    obtain ⟨name, -, hname⟩ := List.mem_filterMap.1 hr
    obtain ⟨pid, -, rfl⟩ := Option.map_eq_some_iff.1 hname
    exact hnodes reason (List.mem_singleton.2 rfl)
  | invalidations =>
    intro a d' h
    obtain ⟨cs, hbuilt, rfl⟩ := Step.map_gives.1 h
    obtain ⟨hcs, rfl⟩ := Step.invalidations_gives.1 hbuilt
    exact ⟨List.prefix_rfl, hd, List.forall_mem_map.2 (hd.invalidations (.inl hcs)),
      fun p hp => (by cases hp)⟩
  | defaultStrength degree =>
    intro a d' h
    obtain ⟨s, hadd, rfl⟩ := Step.map_gives.1 h
    obtain ⟨-, -, rfl⟩ := Step.addStrength_gives.1 (Step.defaultStrength_gives.1 hadd)
    exact hd.leads rfl rfl rfl ⟨rfl, rfl⟩
  | namedStrength names degree =>
    intro a d' h
    obtain ⟨s, hnamed, rfl⟩ := Step.map_gives.1 h
    obtain ⟨pids, -, hadd⟩ := Step.namedStrength_gives.1 hnamed
    obtain ⟨-, -, rfl⟩ := Step.addStrength_gives.1 hadd
    exact hd.leads rfl rfl rfl ⟨rfl, rfl⟩

/-- What a step that fails gives is assembled, too. -/
theorem Command.error_sound {d : Draft} (hd : d.Sound) {command : Command} {e : Failure}
    (h : (command.attempt.on d).1 = .error e) : Outcome.Sound d.params (.error e) := by
  cases e with
  | refused e => exact Outcome.sound_of_none rfl rfl
  | halted e =>
    have hbuilt := hd.invalidations (command.attempt_orderly.halted d e h)
    exact ⟨List.forall_mem_map.2 hbuilt, fun p hp => (by cases hp)⟩

namespace Builder

variable {L : Type} [Logger L] {given : List Outcome}

/-- One call. -/
theorem call_sound {b : Builder L} (hb : b.draft.Sound)
    (hgiven : ∀ o ∈ given, o.Sound b.draft.params) {call : Call} (hdraws : call.DrawsOn given) :
    b.draft.Leads (b.call call).1 (b.call call).2.draft := by
  obtain ⟨hnodes, hparams⟩ : (∀ n ∈ call.nodes, Assembled b.draft.params n) ∧
      ∀ p ∈ call.params, p.Over b.draft.params :=
    hdraws.holds (fun n hn => .literal hn) (fun p aux hp => hp.withAux aux)
      fun o ho => ⟨(hgiven o ho).nodes, (hgiven o ho).params⟩
  rcases call_cases call b with ⟨command, a, d, rfl, h, hout, hdraft⟩ |
    ⟨command, e, rfl, h, hout, hdraft⟩ | ⟨hout, options, hdraft⟩
  · rw [hout, hdraft]
    exact command.attempt_keeps hb hnodes hparams a d h
  · rw [hout, hdraft]
    exact ⟨List.prefix_rfl, hb, Command.error_sound hb h⟩
  · rw [hout, hdraft]
    exact hb.leads rfl rfl rfl ⟨rfl, rfl⟩

/-- A disciplined run, by induction on its calls: what has come out so far is assembled over the
parameters of the draft, whatever is declared later. -/
theorem run_sound {calls : List Call} {b : Builder L} (hb : b.draft.Sound)
    (hgiven : ∀ o ∈ given, o.Sound b.draft.params) (h : Disciplined given calls b) :
    (b.run calls).2.draft.Sound ∧
      ∀ o ∈ given ++ (b.run calls).1, o.Sound (b.run calls).2.draft.params := by
  induction calls generalizing given b with
  | nil => exact ⟨hb, by simpa [run] using hgiven⟩
  | cons call calls ih =>
    obtain ⟨hdraws, hrest⟩ := h
    have hstep := call_sound hb hgiven hdraws
    have hsofar : ∀ o ∈ given ++ [(b.call call).1], o.Sound (b.call call).2.draft.params := by
      refine List.forall_mem_append.2 ⟨fun o ho => (hgiven o ho).mono hstep.le, ?_⟩
      exact List.forall_mem_singleton.2 hstep.outcome
    have hrun := ih hstep.sound hsofar hrest
    rw [List.append_assoc] at hrun
    exact hrun

end Builder

theorem Draft.Sound.empty (options : BuildOptions) : Draft.Sound { options } where
  params := .nil
  constraints c hc := by cases hc
  reasons reason hreason := by cases hreason

end TWay
