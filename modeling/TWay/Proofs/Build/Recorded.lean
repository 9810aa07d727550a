import TWay.Proofs.Build.Registry

/-!
# What a run records for a parameter

The reasons for a parameter are told by the calls of a run (`Builder.run_reasonsFor`): each mention
of its name in a recording adds the tree that is recorded, from the declaration of the parameter on.
Whatever else is called for, and what is recorded under other names, has no part in it.
-/

namespace TWay

/-- What a call records under a name: its tree, once for each mention of the name. -/
def Call.recorded (name : String) : Call → List Node
  | step (.record names reason) => List.replicate (names.count name) reason
  | _ => []

/-- What a call on a draft records under a name, which counts if it is that of a parameter. -/
def Draft.taken (d : Draft) (name : String) (call : Call) : List Node :=
  if name ∈ d.params.map Param.name then call.recorded name else []

/-- What the calls of a run record under a name, of those made when it is that of a parameter. -/
def Builder.recorded {L : Type} [Logger L] (name : String) : List Call → Builder L → List Node
  | [], _ => []
  | call :: calls, b => b.draft.taken name call ++ recorded name calls (b.call call).2

variable {d d' : Draft} {params params' : Params} {name : String} {pid : ParamId} {p : Param}

/-! ## Names -/

/-- A parameter is found by its name, and by no other, from its declaration on. -/
theorem Params.idOf?_eq_some_iff_of_later (hle : params <+: params')
    (hnames : (params'.map Param.name).Nodup) (hp : params'[pid]? = some p) :
    params.idOf? name = some pid ↔ name = p.name ∧ p.name ∈ params.map Param.name := by
  have hfinds : params'.idOf? p.name = some pid :=
    (Params.idOf?_eq_some_iff hnames).2 ⟨p, hp, rfl⟩
  constructor
  · intro hid
    obtain ⟨q, hq, rfl⟩ := (Params.idOf?_eq_some_iff hnames).1 (Params.idOf?_mono hle hid)
    cases hp.symm.trans hq
    refine ⟨rfl, Decidable.byContradiction fun hnone => ?_⟩
    rw [Params.idOf?_eq_none_iff.2 hnone] at hid
    cases hid
  · rintro ⟨rfl, hmem⟩
    cases hid : params.idOf? p.name with
    | none => exact absurd hmem (Params.idOf?_eq_none_iff.1 hid)
    | some pid' => rw [← hfinds, Params.idOf?_mono hle hid]

/-- One copy for each time the name is there. -/
theorem filterMap_eq_replicate {α : Type} {a : α} {names : List String} :
    (names.filterMap fun other => if other = name then some a else none) =
      List.replicate (names.count name) a := by
  induction names with
  | nil => rfl
  | cons other names ih =>
    by_cases h : other = name
    · simp [h, ih, List.replicate_succ]
    · simp [h, ih]

/-! ## One call -/

theorem Draft.taken_eq_nil {call : Call} (h : call.recorded name = []) :
    d.taken name call = [] := by
  rw [taken, h, ite_self]

theorem Step.record_reasonsFor {reason : Node} {names : List String} {u : Unit}
    (hle : d.params <+: params') (hnames : (params'.map Param.name).Nodup)
    (hp : params'[pid]? = some p) (h : (Step.record reason names).Gives d u d') :
    d'.reasonsFor pid = d.reasonsFor pid ++ d.taken p.name (.step (.record names reason)) := by
  have hone (other : String) :
      (((d.params.idOf? other).map fun q => (q, reason)).bind fun r =>
          if r.1 = pid then some r.2 else none) =
        if other = p.name ∧ p.name ∈ d.params.map Param.name then some reason else none := by
    simp only [← Params.idOf?_eq_some_iff_of_later hle hnames hp]
    cases d.params.idOf? other <;> simp
  rw [Draft.reasonsFor_eq, Step.record_gives.1 h, List.filterMap_append, List.filterMap_filterMap]
  simp only [hone, Draft.taken, Call.recorded]
  split
  · rename_i hmem
    simp only [hmem, and_true, filterMap_eq_replicate, Draft.reasonsFor_eq]
  · rename_i hmem
    simp [hmem, Draft.reasonsFor_eq]

/-- Whatever else a step adds, for a parameter it is what is recorded under its name. -/
theorem Command.attempt_reasonsFor (hle : d.params <+: params')
    (hnames : (params'.map Param.name).Nodup) (hp : params'[pid]? = some p) {command : Command}
    {a : Answer} (h : command.attempt.Gives d a d') :
    d'.reasonsFor pid = d.reasonsFor pid ++ d.taken p.name (.step command) := by
  have hnone (htaken : (Call.step command).recorded p.name = [])
      (hreasons : d'.reasons = d.reasons) :
      d'.reasonsFor pid = d.reasonsFor pid ++ d.taken p.name (.step command) := by
    rw [Draft.taken_eq_nil htaken, List.append_nil, Draft.reasonsFor_eq, hreasons,
      Draft.reasonsFor_eq]
  cases command with
  | record names reason =>
    obtain ⟨u, hrecord, -⟩ := Step.map_gives.1 h
    exact Step.record_reasonsFor hle hnames hp hrecord
  | declare type name values =>
    obtain ⟨pid, hdeclare, -⟩ := Step.map_gives.1 h
    obtain ⟨q, -, hadd⟩ := Step.declare_gives.1 hdeclare
    obtain ⟨-, -, rfl⟩ := Step.addParam_gives.1 hadd
    exact hnone rfl rfl
  | declareAuto type name rules =>
    obtain ⟨pid, hdeclare, -⟩ := Step.map_gives.1 h
    obtain ⟨q, -, hadd⟩ := Step.declare_gives.1 hdeclare
    obtain ⟨-, -, rfl⟩ := Step.addParam_gives.1 hadd
    exact hnone rfl rfl
  | addParam q =>
    obtain ⟨pid, hadd, -⟩ := Step.map_gives.1 h
    obtain ⟨-, -, rfl⟩ := Step.addParam_gives.1 hadd
    exact hnone rfl rfl
  | setOption name value =>
    obtain ⟨u, hset, -⟩ := Step.map_gives.1 h
    obtain ⟨options, rfl⟩ := Step.setOption_gives hset
    exact hnone rfl rfl
  | addConstraint c =>
    obtain ⟨u, hadd, -⟩ := Step.map_gives.1 h
    cases Step.modify_gives.1 hadd
    exact hnone rfl rfl
  | addSeed seed =>
    obtain ⟨u, hadd, -⟩ := Step.map_gives.1 h
    cases Step.modify_gives.1 hadd
    exact hnone rfl rfl
  | invalidations =>
    obtain ⟨cs, hbuilt, -⟩ := Step.map_gives.1 h
    obtain ⟨-, rfl⟩ := Step.invalidations_gives.1 hbuilt
    exact hnone rfl rfl
  | defaultStrength degree =>
    obtain ⟨s, hadd, -⟩ := Step.map_gives.1 h
    obtain ⟨-, -, rfl⟩ := Step.addStrength_gives.1 (Step.defaultStrength_gives.1 hadd)
    exact hnone rfl rfl
  | namedStrength names degree =>
    obtain ⟨s, hnamed, -⟩ := Step.map_gives.1 h
    obtain ⟨pids, -, hadd⟩ := Step.namedStrength_gives.1 hnamed
    obtain ⟨-, -, rfl⟩ := Step.addStrength_gives.1 hadd
    exact hnone rfl rfl
  | _ =>
    obtain ⟨x, hreads, -⟩ := Step.map_gives.1 h
    obtain ⟨-, rfl⟩ := Step.reads_gives.1 hreads
    exact hnone rfl rfl

/-- A step that fails is no recording. -/
theorem Command.taken_of_error {command : Command} {e : Failure}
    (h : (command.attempt.on d).1 = .error e) : d.taken name (.step command) = [] := by
  cases command with
  | record names reason =>
    have hnever : (Command.record names reason).attempt.NeverFails :=
      .bind (Step.record_neverFails reason names) fun _ => Step.pure_neverFails _
    exact absurd h (hnever d e)
  | _ => exact Draft.taken_eq_nil rfl

namespace Builder

variable {L : Type} [Logger L]

theorem call_reasonsFor (call : Call) {b : Builder L} (hle : b.draft.params <+: params')
    (hnames : (params'.map Param.name).Nodup) (hp : params'[pid]? = some p) :
    (b.call call).2.draft.reasonsFor pid =
      b.draft.reasonsFor pid ++ b.draft.taken p.name call := by
  cases call with
  | step command =>
    cases h : (b.call (.step command)).1 with
    | ok a => exact Command.attempt_reasonsFor hle hnames hp (call_step_eq_ok.1 h)
    | error e =>
      obtain ⟨hfails, hsame⟩ := call_step_eq_error.1 h
      rw [hsame, Command.taken_of_error hfails, List.append_nil]
  | _ =>
    rw [Draft.taken_eq_nil rfl, List.append_nil]
    rfl

/-! ## A run -/

/-- What there is for a parameter after a run has been recorded in it, by induction on the calls.
The parameter is one of those at the end, and so may be declared on the way. -/
theorem run_reasonsFor {calls : List Call} {b : Builder L} (hb : b.draft.Consistent)
    (hp : (b.run calls).2.draft.params[pid]? = some p) :
    (b.run calls).2.draft.reasonsFor pid =
      b.draft.reasonsFor pid ++ recorded p.name calls b := by
  induction calls generalizing b with
  | nil => exact (List.append_nil _).symm
  | cons call calls ih =>
    have hnames := (run_consistent (call :: calls) hb).names
    have hcall := call_reasonsFor call (run_grows (call :: calls) b).params hnames hp
    have hrest := ih (call_consistent hb call) hp
    rw [hcall, List.append_assoc] at hrest
    exact hrest

end Builder

end TWay
