import TWay.Proofs.Build.Run
import TWay.Proofs.Build.Strength

/-!
# What a step does to a draft

A step that succeeds appends to one list of the draft, sets its options, or leaves it as it is
(`Command.attempt_changes`). A parameter that it appends has a new name, a reason is for a parameter
that is there, and a strength is well formed. So a draft only grows in a run (`Builder.run_grows`):
what an identifier stands for stays. And as a step appends only what it is handed, the trees that a
draft holds in a disciplined run have come out of the run before they went into it
(`Builder.run_holds`).
-/

namespace TWay

/-- The trees in the rules of a parameter. -/
def Param.nodes (p : Param) : List Node :=
  p.rules.flatMap fun rule => [.constraint rule.condition, rule.value]

/-- What a step that succeeds can do to a draft. The trees that it adds are among those that it is
handed, by themselves or in a parameter. -/
inductive Command.Changes (command : Command) (d : Draft) : Draft → Prop
  | nothing : command.Changes d d
  | param {p : Param} : d.params.idOf? p.name = none →
      (∀ n ∈ p.nodes, n ∈ command.nodes ∨ ∃ q ∈ command.params, n ∈ q.nodes) →
        command.Changes d { d with params := d.params ++ [p] }
  | options (options : BuildOptions) : command.Changes d { d with options }
  | constraint {c : Constraint} : .constraint c ∈ command.nodes →
      command.Changes d { d with constraints := d.constraints ++ [c] }
  | reasons {reasons : List (ParamId × Node)} :
      (∀ reason ∈ reasons, reason.1 < d.params.length ∧ reason.2 ∈ command.nodes) →
        command.Changes d { d with reasons := d.reasons ++ reasons }
  | strength {s : Strength} : s.WellFormed d.params →
      command.Changes d { d with strengths := d.strengths ++ [s] }
  | seed (seed : Seed) : command.Changes d { d with seeds := d.seeds ++ [seed] }

/-! ## Steps -/

namespace Build

variable {keyword name : String} {p : Param} {n : Node}

theorem staticParam_nodes {values : List Node}
    (h : (staticParam keyword name values).result = .ok p) : p.nodes = [] := by
  obtain ⟨type, -, ⟨-, rfl⟩ | ⟨-, -, rfl⟩⟩ := staticParam_eq_ok.1 h <;> rfl

theorem autoParam_nodes {rules : List (Node × Node)}
    (h : (autoParam keyword name rules).result = .ok p) :
    p.nodes = rules.flatMap fun (c, v) => [c, v] := by
  obtain ⟨type, built, -, hbuilt, rfl⟩ := autoParam_eq_ok.1 h
  obtain ⟨rfl, -⟩ := autoRules_eq_ok.1 hbuilt
  simp [Param.nodes, Param.rules, List.flatMap_map]

end Build

variable {d d' : Draft} {command : Command} {a : Answer}

/-- A parameter that is added is new. -/
theorem Step.addParam_changes {p : Param} {pid : ParamId}
    (hp : ∀ n ∈ p.nodes, n ∈ command.nodes ∨ ∃ q ∈ command.params, n ∈ q.nodes)
    (h : (Step.addParam p).Gives d pid d') : command.Changes d d' := by
  obtain ⟨hnew, -, rfl⟩ := Step.addParam_gives.1 h
  exact .param hnew hp

theorem Step.addStrength_changes {pids : List ParamId} {degree : Nat} {s : Strength}
    (h : (Step.addStrength pids degree).Gives d s d') (hs : s.WellFormed d.params) :
    command.Changes d d' := by
  obtain ⟨-, -, rfl⟩ := Step.addStrength_gives.1 h
  exact .strength hs

theorem Command.attempt_changes (h : command.attempt.Gives d a d') : command.Changes d d' := by
  cases command with
  | declare type name values =>
    obtain ⟨pid, hdeclare, rfl⟩ := Step.map_gives.1 h
    obtain ⟨p, hp, hadd⟩ := Step.declare_gives.1 hdeclare
    refine Step.addParam_changes (fun n hn => ?_) hadd
    rw [Build.staticParam_nodes hp] at hn
    cases hn
  | declareAuto type name rules =>
    obtain ⟨pid, hdeclare, rfl⟩ := Step.map_gives.1 h
    obtain ⟨p, hp, hadd⟩ := Step.declare_gives.1 hdeclare
    refine Step.addParam_changes (fun n hn => .inl ?_) hadd
    rwa [Build.autoParam_nodes hp] at hn
  | addParam p =>
    obtain ⟨pid, hadd, rfl⟩ := Step.map_gives.1 h
    exact Step.addParam_changes (fun n hn => .inr ⟨p, List.mem_singleton.2 rfl, hn⟩) hadd
  | setOption name value =>
    obtain ⟨u, hset, rfl⟩ := Step.map_gives.1 h
    obtain ⟨options, rfl⟩ := Step.setOption_gives hset
    exact .options options
  | addConstraint c =>
    obtain ⟨u, hadd, rfl⟩ := Step.map_gives.1 h
    cases Step.modify_gives.1 hadd
    exact .constraint (List.mem_singleton.2 rfl)
  | addSeed seed =>
    obtain ⟨u, hadd, rfl⟩ := Step.map_gives.1 h
    cases Step.modify_gives.1 hadd
    exact .seed seed
  | record names reason =>
    obtain ⟨u, hrecord, rfl⟩ := Step.map_gives.1 h
    cases Step.record_gives.1 hrecord
    refine .reasons fun r hr => ?_
    obtain ⟨name, -, hname⟩ := List.mem_filterMap.1 hr
    obtain ⟨pid, hid, rfl⟩ := Option.map_eq_some_iff.1 hname
    obtain ⟨p, hp⟩ := Params.exists_of_idOf? hid
    exact ⟨(List.getElem?_eq_some_iff.1 hp).1, List.mem_singleton.2 rfl⟩
  | invalidations =>
    obtain ⟨cs, hbuilt, rfl⟩ := Step.map_gives.1 h
    obtain ⟨-, rfl⟩ := Step.invalidations_gives.1 hbuilt
    exact .nothing
  | defaultStrength degree =>
    obtain ⟨s, hadd, rfl⟩ := Step.map_gives.1 h
    exact Step.addStrength_changes (Step.defaultStrength_gives.1 hadd)
      (Step.defaultStrength_wellFormed hadd)
  | namedStrength names degree =>
    obtain ⟨s, hnamed, rfl⟩ := Step.map_gives.1 h
    obtain ⟨pids, -, hadd⟩ := Step.namedStrength_gives.1 hnamed
    exact Step.addStrength_changes hadd (Step.namedStrength_wellFormed hnamed)
  | _ =>
    obtain ⟨x, hreads, -⟩ := Step.map_gives.1 h
    obtain ⟨-, rfl⟩ := Step.reads_gives.1 hreads
    exact .nothing

/-- Only a step that builds a parameter gives one, which holds what the step is handed. -/
theorem Command.answer_params (h : command.attempt.Gives d a d') :
    ∀ p ∈ a.params, ∀ n ∈ p.nodes, n ∈ command.nodes := by
  intro p hp n hn
  cases command with
  | staticParam type name values =>
    obtain ⟨q, hreads, rfl⟩ := Step.map_gives.1 h
    obtain ⟨hq, -⟩ := Step.reads_gives.1 hreads
    cases List.mem_singleton.1 hp
    rw [Build.staticParam_nodes hq] at hn
    cases hn
  | autoParam type name rules =>
    obtain ⟨q, hreads, rfl⟩ := Step.map_gives.1 h
    obtain ⟨hq, -⟩ := Step.reads_gives.1 hreads
    cases List.mem_singleton.1 hp
    rwa [Build.autoParam_nodes hq] at hn
  | _ =>
    obtain ⟨x, -, rfl⟩ := Step.map_gives.1 h
    cases hp

/-! ## Growth -/

/-- Each list of the draft goes on where it was. -/
structure Draft.Grows (d d' : Draft) : Prop where
  params : d.params <+: d'.params
  constraints : d.constraints <+: d'.constraints
  reasons : d.reasons <+: d'.reasons
  strengths : d.strengths <+: d'.strengths
  seeds : d.seeds <+: d'.seeds

theorem Draft.Grows.refl (d : Draft) : d.Grows d :=
  ⟨List.prefix_rfl, List.prefix_rfl, List.prefix_rfl, List.prefix_rfl, List.prefix_rfl⟩

theorem Draft.Grows.trans {d'' : Draft} (h : d.Grows d') (h' : d'.Grows d'') : d.Grows d'' where
  params := h.params.trans h'.params
  constraints := h.constraints.trans h'.constraints
  reasons := h.reasons.trans h'.reasons
  strengths := h.strengths.trans h'.strengths
  seeds := h.seeds.trans h'.seeds

theorem Command.Changes.grows (h : command.Changes d d') : d.Grows d' := by
  cases h with
  | nothing => exact .refl d
  | param => exact { Draft.Grows.refl d with params := List.prefix_append .. }
  | options => exact { Draft.Grows.refl d with }
  | constraint => exact { Draft.Grows.refl d with constraints := List.prefix_append .. }
  | reasons => exact { Draft.Grows.refl d with reasons := List.prefix_append .. }
  | strength => exact { Draft.Grows.refl d with strengths := List.prefix_append .. }
  | seed => exact { Draft.Grows.refl d with seeds := List.prefix_append .. }

namespace Builder

variable {L : Type} [Logger L]

theorem call_grows (call : Call) (b : Builder L) : b.draft.Grows (b.call call).2.draft := by
  rcases call_cases call b with ⟨command, a, d, -, h, -, hdraft⟩ | ⟨_, _, -, -, -, hdraft⟩ |
    ⟨-, options, hdraft⟩
  · rw [hdraft]
    exact (Command.attempt_changes h).grows
  · rw [hdraft]
    exact .refl b.draft
  · rw [hdraft]
    exact { Draft.Grows.refl b.draft with }

/-- A run in two parts. -/
theorem run_append (before after : List Call) (b : Builder L) :
    (b.run (before ++ after)).2 = ((b.run before).2.run after).2 := by
  induction before generalizing b with
  | nil => rfl
  | cons call before ih => exact ih (b.call call).2

/-- Whatever is called for, what a draft holds stays where it is. -/
theorem run_grows (calls : List Call) (b : Builder L) : b.draft.Grows (b.run calls).2.draft := by
  induction calls generalizing b with
  | nil => exact .refl b.draft
  | cons call calls ih => exact (call_grows call b).trans (ih (b.call call).2)

theorem run_append_grows (before after : List Call) (b : Builder L) :
    (b.run before).2.draft.Grows (b.run (before ++ after)).2.draft := by
  rw [run_append]
  exact run_grows after _

end Builder

/-! ## Origin -/

/-- The trees that a draft holds: in the rules of its parameters, as constraints and as reasons. -/
def Draft.nodes (d : Draft) : List Node :=
  d.params.flatMap Param.nodes ++ d.constraints.map .constraint ++ d.reasons.map Prod.snd

theorem Command.Changes.origin (h : command.Changes d d') {n : Node} (hn : n ∈ d'.nodes) :
    n ∈ d.nodes ∨ n ∈ command.nodes ∨ ∃ q ∈ command.params, n ∈ q.nodes := by
  cases h with
  | nothing | options | strength | seed => exact .inl hn
  | param _ hp =>
    simp only [Draft.nodes, List.flatMap_append, List.flatMap_singleton, List.mem_append] at hn ⊢
    rcases hn with ((hn | hn) | hn) | hn
    · exact .inl (.inl (.inl hn))
    · exact .inr (hp n hn)
    · exact .inl (.inl (.inr hn))
    · exact .inl (.inr hn)
  | constraint hc =>
    simp only [Draft.nodes, List.map_append, List.map_singleton, List.mem_append,
      List.mem_singleton] at hn ⊢
    rcases hn with (hn | hn | rfl) | hn
    · exact .inl (.inl (.inl hn))
    · exact .inl (.inl (.inr hn))
    · exact .inr (.inl hc)
    · exact .inl (.inr hn)
  | reasons hr =>
    simp only [Draft.nodes, List.map_append, List.mem_append] at hn ⊢
    rcases hn with (hn | hn) | hn | hn
    · exact .inl (.inl (.inl hn))
    · exact .inl (.inl (.inr hn))
    · exact .inl (.inr hn)
    · obtain ⟨reason, hmem, rfl⟩ := List.mem_map.1 hn
      exact .inr (.inl (hr reason hmem).2)

namespace Builder

variable {L : Type} [Logger L] {given : List Outcome} {Q : Node → Prop}

theorem call_holds {b : Builder L} (hb : ∀ n ∈ b.draft.nodes, Q n) {call : Call}
    (hnodes : ∀ n ∈ call.nodes, Q n) (hparams : ∀ p ∈ call.params, ∀ n ∈ p.nodes, Q n) :
    (∀ n ∈ (b.call call).2.draft.nodes, Q n) ∧
      ∀ p ∈ (b.call call).1.params, ∀ n ∈ p.nodes, Q n := by
  rcases call_cases call b with ⟨command, a, d, rfl, h, hout, hdraft⟩ | ⟨_, _, -, -, hout, hdraft⟩ |
    ⟨hout, options, hdraft⟩
  · rw [hout, hdraft]
    refine ⟨fun n hn => ?_, fun p hp n hn => hnodes n (Command.answer_params h p hp n hn)⟩
    rcases (Command.attempt_changes h).origin hn with hn | hn | ⟨q, hq, hn⟩
    · exact hb n hn
    · exact hnodes n hn
    · exact hparams q hq n hn
  · rw [hout, hdraft]
    exact ⟨hb, fun p hp => (by cases hp)⟩
  · rw [hout, hdraft]
    exact ⟨hb, fun p hp => (by cases hp)⟩

/-- In a disciplined run, what is true of all literals and of all trees that come out is true of the
trees that the draft holds: they have been handed in. -/
theorem run_holds {calls : List Call} {b : Builder L}
    (hliteral : ∀ n : Node, n.isLiteral = true → Q n) (hb : ∀ n ∈ b.draft.nodes, Q n)
    (hgiven : ∀ o ∈ given, (∀ n ∈ o.nodes, Q n) ∧ ∀ p ∈ o.params, ∀ n ∈ p.nodes, Q n)
    (h : Disciplined given calls b) (hout : ∀ o ∈ (b.run calls).1, ∀ n ∈ o.nodes, Q n) :
    ∀ n ∈ (b.run calls).2.draft.nodes, Q n := by
  induction calls generalizing given b with
  | nil => exact hb
  | cons call calls ih =>
    obtain ⟨hdraws, hrest⟩ := h
    obtain ⟨hnodes, hparams⟩ := hdraws.holds hliteral (fun p aux hp => hp) hgiven
    obtain ⟨hdraft, hgives⟩ := call_holds hb hnodes hparams
    obtain ⟨hfirst, hlater⟩ := List.forall_mem_cons.1 hout
    refine ih hdraft (List.forall_mem_append.2 ⟨hgiven, ?_⟩) hrest hlater
    exact List.forall_mem_singleton.2 ⟨hfirst, hgives⟩

end Builder

end TWay
