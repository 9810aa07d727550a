import TWay.Proofs.Build.Change
import TWay.Proofs.Build.Condition
import TWay.Proofs.Build.Recorded
import TWay.Proofs.Build.Report

/-!
# What recorded reasons come to

Whatever a run has recorded, and in whatever order, each parameter gets one constraint, which is
made of what was recorded under its name and of nothing else: it says that the parameter is invalid
just if one of these conditions holds (`invalidations_follow_recordings`). Asking for the
constraints changes nothing.
-/

namespace TWay

variable {L : Type} [Logger L] {b : Builder L} {options : BuildOptions} {calls : List Call}
  {cs : List Constraint} {pid : ParamId} {p : Param}

namespace Builder

/-- Where the constraints can be built, there is nothing to report. -/
theorem call_invalidations_of_ok
    (h : (b.call (.step .invalidations)).1 = .ok (.constraints cs)) :
    (b.call (.step .invalidations)).2 = b := by
  rw [call_invalidations, call_invalidations_eq_ok.1 h]
  show (⟨b.log.map (Logger.hear []), b.draft⟩ : Builder L) = b
  rw [Logger.map_hear_nil]

/-- The constraint for a parameter is made of what the run has recorded under its name. -/
theorem getElem?_of_call_invalidations (hempty : b.draft = { options })
    (h : ((b.run calls).2.call (.step .invalidations)).1 = .ok (.constraints cs))
    (hp : (b.run calls).2.draft.params[pid]? = some p) :
    ∃ conditions, b.recorded p.name calls = conditions.map .constraint ∧
      cs[pid]? = some (Draft.invalidWhen pid conditions) := by
  have hreasons := run_reasonsFor (hempty ▸ .empty options) hp
  have hnone : b.draft.reasonsFor pid = [] := by rw [hempty]; rfl
  rw [hnone, List.nil_append] at hreasons
  rw [← hreasons]
  exact Draft.getElem?_of_invalidations (call_invalidations_eq_ok.1 h) hp

end Builder

/-- The constraints on invalid parameters follow what has been recorded. Let calls follow from an
empty draft, and let it give the constraints then. That changes nothing, not even the log, and there
is one for each parameter, at its place. It is made of conditions, which are all that the calls have
recorded under the name of the parameter since its declaration, and says that the parameter is
invalid just if one of them holds. Other calls under which the same is recorded for the parameter at
this place lead to the same constraint, and to one that evaluates to the same if it is recorded in
another order. -/
theorem invalidations_follow_recordings (hempty : b.draft = { options })
    (hcall : ((b.run calls).2.call (.step .invalidations)).1 = .ok (.constraints cs)) :
    ((b.run calls).2.call (.step .invalidations)).2 = (b.run calls).2 ∧
    cs.length = (b.run calls).2.draft.params.length ∧
    ∀ pid p, (b.run calls).2.draft.params[pid]? = some p → ∃ conditions entry,
      b.recorded p.name calls = conditions.map .constraint ∧
      cs[pid]? = some entry ∧ entry.InvalidJustIf pid conditions ∧
      ∀ calls' cs' p', ((b.run calls').2.call (.step .invalidations)).1 = .ok (.constraints cs') →
        (b.run calls').2.draft.params[pid]? = some p' →
        (b.recorded p'.name calls' = b.recorded p.name calls → cs'[pid]? = some entry) ∧
        ((b.recorded p'.name calls').Perm (b.recorded p.name calls) →
          ∃ entry', cs'[pid]? = some entry' ∧
            ∀ (ctx : Context) v, ctx.constraint entry' = .ok v ↔ ctx.constraint entry = .ok v) := by
  have hbuilt := Builder.call_invalidations_eq_ok.1 hcall
  refine ⟨Builder.call_invalidations_of_ok hcall, Draft.length_of_invalidations hbuilt, ?_⟩
  intro pid p hp
  obtain ⟨conditions, hrecorded, hentry⟩ :=
    Builder.getElem?_of_call_invalidations hempty hcall hp
  refine ⟨conditions, _, hrecorded, hentry, Draft.invalidWhen_justIf pid conditions, ?_⟩
  intro calls' cs' p' hcall' hp'
  obtain ⟨conditions', hrecorded', hentry'⟩ :=
    Builder.getElem?_of_call_invalidations hempty hcall' hp'
  have hinjective : Function.Injective Node.constraint := fun _ _ => Node.constraint.inj
  rw [hrecorded, hrecorded', hentry']
  constructor
  · intro hsame
    rw [List.map_injective_iff.2 hinjective hsame]
  · intro hperm
    have hconditions : conditions'.Perm conditions := (List.map_perm_map_iff hinjective).1 hperm
    refine ⟨_, rfl, fun ctx v => ⟨?_, ?_⟩⟩
    · exact Context.invalidWhen_perm hconditions
    · exact Context.invalidWhen_perm hconditions.symm

/-- A reason that comes before the declaration, and one that is recorded twice, beside a name that
is not there. -/
theorem invalidations_follow_recordings_repeated :
    let a : Constraint := .param 0
    let calls : List Call :=
      [.step (.declare "bool" "a" []), .step (.record ["b"] (.constraint (.not a))),
        .step (.declare "bool" "b" []), .step (.record ["b", "c", "b"] (.constraint a))]
    let b : Builder MessageLog := .new
    let cs : List Constraint :=
      [.not (.invalid 0), .logic .iff (.logic .or a a) (.invalid 1)]
    ((b.run calls).2.call (.step .invalidations)).1 = .ok (.constraints cs) ∧
      b.recorded "b" calls = [.constraint a, .constraint a] ∧
      ((b.run calls).2.call (.step .invalidations)).2 = (b.run calls).2 ∧
      ∃ entry, cs[1]? = some entry ∧ entry.InvalidJustIf 1 [a, a] := by
  intro a calls b cs
  let halfway : Builder MessageLog :=
    ⟨some { warnings := ["parameter b not found"] }, { params := [.boolean "a"] }⟩
  have hbefore : (b.run (calls.take 2)).2 = halfway := rfl
  have hafter : (halfway.run (calls.drop 2)).2.draft =
      { params := [.boolean "a", .boolean "b"]
        reasons := [(1, .constraint a), (1, .constraint a)] } := rfl
  have hdraft : (b.run calls).2.draft =
      { params := [.boolean "a", .boolean "b"]
        reasons := [(1, .constraint a), (1, .constraint a)] } := by
    rw [← hafter, ← hbefore, ← Builder.run_append, List.take_append_drop]
  have hcall : ((b.run calls).2.call (.step .invalidations)).1 = .ok (.constraints cs) := by
    rw [Builder.call_invalidations_eq_ok, hdraft]
    rfl
  have hrecorded : b.recorded "b" calls = [.constraint a, .constraint a] := rfl
  have hparam : (b.run calls).2.draft.params[1]? = some (.boolean "b") := by
    rw [hdraft]
    rfl
  obtain ⟨hsame, -, hentries⟩ := invalidations_follow_recordings (b := b) rfl hcall
  obtain ⟨conditions, entry, hconditions, hentry, hsays, -⟩ := hentries 1 _ hparam
  have hmap : conditions.map Node.constraint = [a, a].map .constraint :=
    hconditions.symm.trans hrecorded
  rw [List.map_injective_iff.2 (fun _ _ => Node.constraint.inj) hmap] at hsays
  exact ⟨hcall, hrecorded, hsame, entry, hentry, hsays⟩

end TWay
