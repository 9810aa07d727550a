import TWay.Proofs.Build.Change

/-!
# What every draft of a run has

No two parameters of a draft share a name, reasons are recorded for parameters that are there, and
strengths are well formed: an empty draft is consistent in this sense, and each step keeps it so
(`Command.Changes.consistent`). Together with the growth of a draft this says what can be relied on
in a run: a name finds its parameter, every recorded reason has its part in the constraint for its
parameter, and an identifier or a strength that was handed out stands for the same entry ever after
(`registry_consistent`, `strengths_stay_well_formed`).
-/

namespace TWay

/-! ## Consistency -/

/-- Names are unique, reasons are for parameters that are there, and strengths are well formed. -/
structure Draft.Consistent (d : Draft) : Prop where
  names : (d.params.map Param.name).Nodup
  reasons : ∀ reason ∈ d.reasons, reason.1 < d.params.length
  strengths : ∀ s ∈ d.strengths, s.WellFormed d.params

theorem Draft.Consistent.empty (options : BuildOptions) : Draft.Consistent { options } where
  names := List.nodup_nil
  reasons reason hreason := by cases hreason
  strengths s hs := by cases hs

variable {d d' : Draft} {command : Command} {a : Answer}

/-- Names stay unique as a parameter is only added under a new one. -/
theorem Command.Changes.consistent (h : command.Changes d d') (hd : d.Consistent) :
    d'.Consistent := by
  cases h with
  | nothing => exact hd
  | @param p hnew =>
    have hle : d.params <+: d.params ++ [p] := List.prefix_append ..
    refine ⟨?_, fun reason hreason => ?_, fun s hs => (hd.strengths s hs).mono hle⟩
    · rw [List.map_append, List.nodup_append]
      refine ⟨hd.names, by simp, fun name hname other hother => ?_⟩
      rw [List.mem_singleton.1 hother]
      rintro rfl
      exact Params.idOf?_eq_none_iff.1 hnew hname
    · exact Nat.lt_of_lt_of_le (hd.reasons reason hreason) hle.length_le
  | options => exact ⟨hd.names, hd.reasons, hd.strengths⟩
  | constraint => exact ⟨hd.names, hd.reasons, hd.strengths⟩
  | reasons hreasons =>
    refine ⟨hd.names, List.forall_mem_append.2 ⟨hd.reasons, fun reason hreason => ?_⟩,
      hd.strengths⟩
    exact (hreasons reason hreason).1
  | strength hs =>
    exact ⟨hd.names, hd.reasons,
      List.forall_mem_append.2 ⟨hd.strengths, List.forall_mem_singleton.2 hs⟩⟩
  | seed => exact ⟨hd.names, hd.reasons, hd.strengths⟩

/-- Nothing that is recorded is passed over: the constraints can be built when all of it are
conditions. -/
theorem Draft.Consistent.exists_invalidations (hd : d.Consistent) :
    (∃ cs, d.invalidations.result = .ok cs) ↔
      ∀ reason ∈ d.reasons, ∃ c, reason.2 = .constraint c := by
  rw [Draft.exists_invalidations_eq_ok]
  constructor
  · rintro h ⟨pid, n⟩ hmem
    exact h pid _ (List.getElem?_eq_getElem (hd.reasons _ hmem)) n (Draft.mem_reasonsFor.2 hmem)
  · exact fun h pid p _ n hn => h (pid, n) (Draft.mem_reasonsFor.1 hn)

/-- A recorded condition has its part in the constraint at the place of its parameter. -/
theorem Draft.Consistent.condition_counts (hd : d.Consistent) {cs : List Constraint}
    (hcs : d.invalidations.result = .ok cs) {pid : ParamId} {c : Constraint}
    (hc : (pid, .constraint c) ∈ d.reasons) :
    ∃ conditions, c ∈ conditions ∧ cs[pid]? = some (Draft.invalidWhen pid conditions) := by
  obtain ⟨conditions, hreasons, hplace⟩ :=
    Draft.getElem?_of_invalidations hcs (List.getElem?_eq_getElem (hd.reasons _ hc))
  refine ⟨conditions, ?_, hplace⟩
  have hmem : .constraint c ∈ conditions.map Node.constraint :=
    hreasons ▸ Draft.mem_reasonsFor.2 hc
  obtain ⟨c', hc', heq⟩ := List.mem_map.1 hmem
  cases heq
  exact hc'

/-! ## Answers -/

/-- What an answer names is in the draft: a parameter, a value of a parameter, or a strength. -/
def Draft.Has (d : Draft) : Answer → Prop
  | .pid pid => ∃ p, d.params[pid]? = some p
  | .choice (some c) => ∃ p v, d.params[c.pid]? = some p ∧ p.values[c.vid]? = some v
  | .strength s => s ∈ d.strengths
  | _ => True

theorem Draft.Has.mono (hle : d.Grows d') (h : d.Has a) : d'.Has a := by
  cases a with
  | pid pid =>
    obtain ⟨p, hp⟩ := h
    exact ⟨p, getElem?_mono hle.params hp⟩
  | choice c =>
    cases c with
    | none => trivial
    | some c =>
      obtain ⟨p, v, hp, hv⟩ := h
      exact ⟨p, v, getElem?_mono hle.params hp, hv⟩
  | strength s => exact hle.strengths.subset h
  | _ => trivial

theorem Step.addParam_has {p : Param} {pid : ParamId} (h : (Step.addParam p).Gives d pid d') :
    d'.Has (.pid pid) := by
  obtain ⟨-, rfl, rfl⟩ := Step.addParam_gives.1 h
  exact ⟨p, List.getElem?_concat_length⟩

theorem Step.declare_has {x : Attempt Empty BuildError Param} {pid : ParamId}
    (h : (Step.declare x).Gives d pid d') : d'.Has (.pid pid) := by
  obtain ⟨p, -, hadd⟩ := Step.declare_gives.1 h
  exact Step.addParam_has hadd

theorem Step.addStrength_has {pids : List ParamId} {degree : Nat} {s : Strength}
    (h : (Step.addStrength pids degree).Gives d s d') : d'.Has (.strength s) := by
  obtain ⟨-, -, rfl⟩ := Step.addStrength_gives.1 h
  exact List.mem_append_right _ (List.mem_singleton.2 rfl)

theorem Command.attempt_has (h : command.attempt.Gives d a d') : d'.Has a := by
  cases command with
  | declare type name values =>
    obtain ⟨pid, hdeclare, rfl⟩ := Step.map_gives.1 h
    exact Step.declare_has hdeclare
  | declareAuto type name rules =>
    obtain ⟨pid, hdeclare, rfl⟩ := Step.map_gives.1 h
    exact Step.declare_has hdeclare
  | addParam p =>
    obtain ⟨pid, hadd, rfl⟩ := Step.map_gives.1 h
    exact Step.addParam_has hadd
  | choice name value =>
    obtain ⟨c, hreads, rfl⟩ := Step.map_gives.1 h
    obtain ⟨hc, rfl⟩ := Step.reads_gives.1 hreads
    cases c with
    | none => trivial
    | some c =>
      obtain ⟨-, p, -, hp, -, hfirst⟩ := Draft.choice?_eq_ok_some.1 hc
      obtain ⟨v, hv, -⟩ := hfirst.here
      exact ⟨p, v, hp, hv⟩
  | defaultStrength degree =>
    obtain ⟨s, hadd, rfl⟩ := Step.map_gives.1 h
    exact Step.addStrength_has (Step.defaultStrength_gives.1 hadd)
  | namedStrength names degree =>
    obtain ⟨s, hnamed, rfl⟩ := Step.map_gives.1 h
    obtain ⟨pids, -, hadd⟩ := Step.namedStrength_gives.1 hnamed
    exact Step.addStrength_has hadd
  | _ =>
    obtain ⟨x, -, rfl⟩ := Step.map_gives.1 h
    trivial

/-! ## Runs -/

namespace Builder

variable {L : Type} [Logger L]

theorem call_consistent {b : Builder L} (hb : b.draft.Consistent) (call : Call) :
    (b.call call).2.draft.Consistent := by
  rcases call_cases call b with ⟨command, a, d, -, h, -, hdraft⟩ | ⟨_, _, -, -, -, hdraft⟩ |
    ⟨-, options, hdraft⟩
  · rw [hdraft]
    exact (Command.attempt_changes h).consistent hb
  · rw [hdraft]
    exact hb
  · rw [hdraft]
    exact ⟨hb.names, hb.reasons, hb.strengths⟩

theorem run_consistent (calls : List Call) {b : Builder L} (hb : b.draft.Consistent) :
    (b.run calls).2.draft.Consistent := by
  induction calls generalizing b with
  | nil => exact hb
  | cons call calls ih => exact ih (call_consistent hb call)

theorem call_has {call : Call} {b : Builder L} (h : (b.call call).1 = .ok a) :
    (b.call call).2.draft.Has a := by
  rcases call_cases call b with ⟨command, a', d, -, hgives, hout, hdraft⟩ |
    ⟨_, _, -, -, hout, -⟩ | ⟨hout, -⟩
  · rw [hout] at h
    cases h
    rw [hdraft]
    exact Command.attempt_has hgives
  · rw [hout] at h
    cases h
  · rw [hout] at h
    cases h
    trivial

/-- What has been handed out in a run is there at its end. -/
theorem run_has {calls : List Call} {b : Builder L} (h : .ok a ∈ (b.run calls).1) :
    (b.run calls).2.draft.Has a := by
  induction calls generalizing b with
  | nil => cases h
  | cons call calls ih =>
    rcases List.mem_cons.1 h with hfirst | hlater
    · exact (call_has hfirst.symm).mono (run_grows calls _)
    · exact ih hlater

end Builder

variable {L : Type} [Logger L] {b : Builder L} {options : BuildOptions}

/-- The registry can be relied on. After any calls from an empty draft no two parameters share a
name, a name finds the parameter that has it, and reasons are recorded for parameters that are
there. The constraints for invalid parameters can be built exactly when all recorded reasons are
conditions, and then none of these is lost. What the calls have handed out is there, and stays where
it is under whatever calls come after: each list, also that of the reasons for a parameter, only
grows at its end. -/
theorem registry_consistent (hempty : b.draft = { options }) (before after : List Call) :
    let d := (b.run before).2.draft
    let d' := (b.run (before ++ after)).2.draft
    (d.params.map Param.name).Nodup ∧
    (∀ name pid, d.params.idOf? name = some pid ↔ ∃ p, d.params[pid]? = some p ∧ p.name = name) ∧
    (∀ reason ∈ d.reasons, reason.1 < d.params.length) ∧
    ((∃ cs, ((b.run before).2.call (.step .invalidations)).1 = .ok (.constraints cs)) ↔
      ∀ reason ∈ d.reasons, ∃ c, reason.2 = .constraint c) ∧
    (∀ cs, ((b.run before).2.call (.step .invalidations)).1 = .ok (.constraints cs) →
      ∀ pid c, (pid, .constraint c) ∈ d.reasons →
        ∃ conditions, c ∈ conditions ∧ cs[pid]? = some (Draft.invalidWhen pid conditions)) ∧
    (∀ a, .ok a ∈ (b.run before).1 → d.Has a) ∧
    d.Grows d' ∧ ∀ pid, d.reasonsFor pid <+: d'.reasonsFor pid := by
  intro d d'
  have hd : d.Consistent := Builder.run_consistent before (hempty ▸ .empty options)
  have hgrows : d.Grows d' := Builder.run_append_grows before after b
  simp only [Builder.call_invalidations_eq_ok]
  exact ⟨hd.names, fun _ _ => Params.idOf?_eq_some_iff hd.names, hd.reasons,
    hd.exists_invalidations, fun _ hcs _ _ hc => hd.condition_counts hcs hc,
    fun _ ha => Builder.run_has ha, hgrows, fun _ => hgrows.reasons.filterMap _⟩

/-- Reasons for a parameter that is there, twice, and for one that is declared only later. -/
theorem registry_consistent_recorded :
    let a : Node := .constraint (.param 0)
    let before : List Call :=
      [.step (.declare "bool" "a" []), .step (.record ["a", "b", "a"] a)]
    let after : List Call := [.step (.declare "bool" "b" []), .step (.record ["b"] a)]
    let b : Builder MessageLog := .new
    let d := (b.run before).2.draft
    let d' := (b.run (before ++ after)).2.draft
    b.draft = {} ∧ d.reasons = [(0, a), (0, a)] ∧ d'.reasons = [(0, a), (0, a), (1, a)] ∧
      (d.params.map Param.name).Nodup ∧ d.Grows d' ∧
      ∀ pid, d.reasonsFor pid <+: d'.reasonsFor pid := by
  intro a before after b d d'
  obtain ⟨hnames, -, -, -, -, -, hgrows, hprefix⟩ :=
    registry_consistent (b := b) rfl before after
  let halfway : Builder MessageLog :=
    ⟨some { warnings := ["parameter b not found"] },
      { params := [.boolean "a"], reasons := [(0, a), (0, a)] }⟩
  have hbefore : (b.run before).2 = halfway := rfl
  have hafter : (halfway.run after).2.draft.reasons = [(0, a), (0, a), (1, a)] := rfl
  have hreasons : d'.reasons = [(0, a), (0, a), (1, a)] := by
    rw [← hafter, ← hbefore, ← Builder.run_append]
  exact ⟨rfl, rfl, hreasons, hnames, hgrows, hprefix⟩

/-- Strengths stay well formed. Let calls follow after any calls from an empty draft. Each strength
that is recorded by then is still there at the end, is well formed there, and asks for the same
targets as before. One that is recorded by default is for the parameters that are neither auxiliary
nor computed at the time. -/
theorem strengths_stay_well_formed (hempty : b.draft = { options }) (before after : List Call) :
    let d := (b.run before).2.draft
    let d' := (b.run (before ++ after)).2.draft
    (∀ s ∈ d.strengths, s ∈ d'.strengths ∧ s.WellFormed d'.params ∧
      ∃ targets, s.targets d.params = .ok targets ∧ s.targets d'.params = .ok targets) ∧
    ∀ degree s, ((b.run before).2.call (.step (.defaultStrength degree))).1 = .ok (.strength s) →
      s ∈ ((b.run before).2.call (.step (.defaultStrength degree))).2.draft.strengths ∧
        ∀ pid, pid ∈ s.pids ↔ ∃ p, d.params[pid]? = some p ∧ p.aux = false ∧ p.isAuto = false := by
  intro d d'
  have hd : d.Consistent := Builder.run_consistent before (hempty ▸ .empty options)
  have hgrows : d.Grows d' := Builder.run_append_grows before after b
  refine ⟨fun s hs => ?_, fun degree s hcall => ⟨Builder.call_has hcall, fun pid => ?_⟩⟩
  · have hwell := hd.strengths s hs
    exact ⟨hgrows.strengths.subset hs, hwell.mono hgrows.params, hwell.targets_stay hgrows.params⟩
  · obtain ⟨s', hadd, heq⟩ := Step.map_gives.1 (Builder.call_step_eq_ok.1 hcall)
    cases heq
    obtain ⟨-, rfl, -⟩ := Step.addStrength_gives.1 (Step.defaultStrength_gives.1 hadd)
    exact Draft.mem_eligible

/-- A name and the default overlap; a parameter is declared later. -/
theorem strengths_stay_well_formed_overlap :
    let before : List Call :=
      [.step (.declare "bool" "a" []), .step (.declare "bool" "b" []),
        .step (.namedStrength ["b", "default", "a"] 2)]
    let after : List Call := [.step (.declare "int" "c" [])]
    let b : Builder MessageLog := .new
    let s : Strength := ⟨[0, 1], 2⟩
    let d := (b.run before).2.draft
    let d' := (b.run (before ++ after)).2.draft
    b.draft = {} ∧ s ∈ d.strengths ∧ s ∈ d'.strengths ∧ s.WellFormed d'.params ∧
      ∃ targets, s.targets d.params = .ok targets ∧ s.targets d'.params = .ok targets := by
  intro before after b s d d'
  have hs : s ∈ d.strengths := by decide +kernel
  obtain ⟨hstay, -⟩ := strengths_stay_well_formed (b := b) rfl before after
  exact ⟨rfl, hs, hstay s hs⟩

end TWay
