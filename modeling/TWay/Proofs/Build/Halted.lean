import TWay.Proofs.Build.Registry
import TWay.Proofs.Build.Report

/-!
# Where the constraints on invalid parameters stop

A recorded reason that is no constraint stops the building of the constraints at its parameter, the
first of those that have one. What has been built by then is what comes out when nothing is recorded
for this parameter and those behind it (`Draft.stopsAt_of_halted`). The failure tells the place of
the first such reason of the parameter, and nothing else changes, so that another attempt stops
there again (`unfit_reason_halts`).
-/

namespace TWay

theorem Node.family_eq_constraint {n : Node} :
    n.family = .constraint ↔ ∃ c, n = .constraint c := by
  cases n <;> simp [family]

namespace Draft

variable {d : Draft} {pid : ParamId} {p : Param} {name : String} {cause : BuildError}
  {built : List Constraint}

/-! ## One parameter -/

/-- The first of the reasons that is no constraint is at this place. -/
structure FirstUnfit (reasons : List Node) (k : Nat) : Prop where
  here : ∃ n, reasons[k]? = some n ∧ n.family ≠ .constraint
  first : ∀ j < k, ∀ n, reasons[j]? = some n → n.family = .constraint

theorem firstUnfit_iff {reasons : List Node} {k : Nat} :
    FirstUnfit reasons k ↔ reasons.findIdx? (fun n => n.family != .constraint) = some k := by
  rw [findIdx?_eq_some_iff_first]
  simp only [bne_iff_ne, bne_eq_false_iff_eq]
  exact ⟨fun h => ⟨h.here, h.first⟩, fun h => ⟨h.1, h.2⟩⟩

/-- Behind a constraint the places are counted from the next one on. -/
theorem conditions_eq_error {position : Nat} {reasons : List Node} :
    (conditions name position reasons).result = .error cause ↔
      ∃ k, FirstUnfit reasons k ∧ cause = .notACondition (position + k) name := by
  simp only [firstUnfit_iff, eq_comm (a := cause)]
  induction reasons generalizing position with
  | nil => simp [conditions]
  | cons reason reasons ih =>
    cases reason with
    | constraint c =>
      have hrest : (conditions name position (.constraint c :: reasons)).result = .error cause ↔
          (conditions name (position + 1) reasons).result = .error cause := by
        rw [conditions, Attempt.result_bind]
        cases (conditions name (position + 1) reasons).result <;> simp
      have hskip : (Node.constraint c).family != .constraint ↔ False := by simp [Node.family]
      rw [hrest, ih, List.findIdx?_cons]
      simp only [hskip, if_false, Option.map_eq_some_iff]
      constructor
      · rintro ⟨k, hk, rfl⟩
        exact ⟨k + 1, ⟨k, hk, rfl⟩, by rw [Nat.add_assoc, Nat.add_comm k]⟩
      · rintro ⟨_, ⟨k, hk, rfl⟩, rfl⟩
        exact ⟨k, hk, by rw [Nat.add_assoc, Nat.add_comm k]⟩
    | arith e => simp [conditions, List.findIdx?_cons, Node.family]
    | string e => simp [conditions, List.findIdx?_cons, Node.family]

theorem invalidation_eq_error :
    (d.invalidation pid p).result = .error cause ↔
      ∃ k, FirstUnfit (d.reasonsFor pid) k ∧ cause = .notACondition (k + 1) p.name := by
  have hconditions : (d.invalidation pid p).result = .error cause ↔
      (conditions p.name 1 (d.reasonsFor pid)).result = .error cause := by
    rw [invalidation, Attempt.result_map]
    cases (conditions p.name 1 (d.reasonsFor pid)).result <;> simp
  simp only [hconditions, conditions_eq_error, Nat.add_comm 1]

/-! ## All parameters -/

theorem family_of_reasonsFor {c : Constraint} (h : (d.invalidation pid p).result = .ok c) :
    ∀ n ∈ d.reasonsFor pid, n.family = .constraint := by
  obtain ⟨conditions, hreasons, -⟩ := invalidation_eq_ok.1 h
  rw [hreasons]
  exact List.forall_mem_map.2 fun _ _ => rfl

/-- The first parameter with a reason that is no constraint, and the place of the first such one. -/
structure StopsAt (d : Draft) (pid : ParamId) (k : Nat) : Prop where
  unfit : FirstUnfit (d.reasonsFor pid) k
  least : ∀ q < pid, ∀ n ∈ d.reasonsFor q, n.family = .constraint

/-- The draft without the reasons for a parameter and those behind it. -/
def reasonsBelow (d : Draft) (pid : ParamId) : Draft :=
  { d with reasons := d.reasons.filter fun reason => reason.1 < pid }

theorem reasonsFor_reasonsBelow (d : Draft) (pid q : ParamId) :
    (d.reasonsBelow pid).reasonsFor q = if q < pid then d.reasonsFor q else [] := by
  rw [reasonsFor_eq, reasonsFor_eq, reasonsBelow, List.filterMap_filter]
  split
  · rename_i hlt
    refine congrArg (d.reasons.filterMap ·) (funext fun reason => ?_)
    by_cases hq : reason.1 = q
    · simp [hq, hlt]
    · simp [hq]
  · rename_i hge
    refine List.filterMap_eq_nil_iff.2 fun reason _ => ?_
    by_cases hq : reason.1 = q
    · simp [hq, hge]
    · simp [hq]

/-- At each place before the one that is stopped at there is a constraint, and there the failure. -/
theorem invalidation_of_halted {h : Halted} (hfails : d.invalidations.result = .error h) :
    (∃ p, d.params[h.built.length]? = some p ∧
      (d.invalidation h.built.length p).result = .error h.cause) ∧
    ∀ q < h.built.length, ∃ p c, d.params[q]? = some p ∧ h.built[q]? = some c ∧
      (d.invalidation q p).result = .ok c := by
  rw [invalidations_eq] at hfails
  obtain ⟨rest, hrest⟩ := collect_eq_error hfails
  rw [List.map_map] at hrest
  have hplace (q : ParamId) : (d.params[q]?).map (fun p => (d.invalidation q p).result) =
      (h.built.map Except.ok ++ .error h.cause :: rest)[q]? := by
    rw [← hrest, List.getElem?_map, List.getElem?_zipIdx, Nat.zero_add, Option.map_map]
    rfl
  constructor
  · have hlast := hplace h.built.length
    rw [List.getElem?_append_right (by simp), List.length_map, Nat.sub_self,
      List.getElem?_cons_zero] at hlast
    exact Option.map_eq_some_iff.1 hlast
  · intro q hq
    have hearlier := hplace q
    rw [List.getElem?_append_left (by simpa using hq), List.getElem?_map,
      List.getElem?_eq_getElem hq, Option.map_some] at hearlier
    obtain ⟨p, hp, hbuilt⟩ := Option.map_eq_some_iff.1 hearlier
    exact ⟨p, _, hp, List.getElem?_eq_getElem hq, hbuilt⟩

/-- A draft that cannot be finished stops at the first reason that is no constraint. What has been
built is what comes out when nothing is recorded from the parameter of this reason on. -/
theorem stopsAt_of_halted {h : Halted} (hfails : d.invalidations.result = .error h) :
    ∃ p k all, d.params[h.built.length]? = some p ∧ d.StopsAt h.built.length k ∧
      h.cause = .notACondition (k + 1) p.name ∧
      (d.reasonsBelow h.built.length).invalidations.result = .ok all ∧
      h.built = all.take h.built.length := by
  obtain ⟨⟨p, hp, hcause⟩, hearlier⟩ := invalidation_of_halted hfails
  obtain ⟨k, hk, hcause⟩ := invalidation_eq_error.1 hcause
  have hleast : ∀ q < h.built.length, ∀ n ∈ d.reasonsFor q, n.family = .constraint := by
    intro q hq
    obtain ⟨p, c, -, -, hc⟩ := hearlier q hq
    exact family_of_reasonsFor hc
  obtain ⟨all, hall⟩ : ∃ all, (d.reasonsBelow h.built.length).invalidations.result = .ok all := by
    refine exists_invalidations_eq_ok.2 fun q p hq n hn => ?_
    rw [reasonsFor_reasonsBelow] at hn
    split at hn
    · rename_i hlt
      exact Node.family_eq_constraint.1 (hleast q hlt n hn)
    · cases hn
  refine ⟨p, k, all, hp, ⟨hk, hleast⟩, hcause, hall, List.ext_getElem? fun q => ?_⟩
  rw [List.getElem?_take]
  split
  · rename_i hlt
    obtain ⟨p', c, hp', hc, hbuilt⟩ := hearlier q hlt
    obtain ⟨c', hc', hbuilt'⟩ := invalidation_of_invalidations hall hp'
    have hsame : ((d.reasonsBelow h.built.length).invalidation q p' : Attempt Empty _ _) =
        d.invalidation q p' := by
      rw [invalidation, reasonsFor_reasonsBelow, if_pos hlt, invalidation]
    rw [hsame, hbuilt, Except.ok.injEq] at hbuilt'
    rw [hc, hc', hbuilt']
  · rename_i hge
    exact List.getElem?_eq_none (by omega)

end Draft

variable {L : Type} [Logger L] {b : Builder L}

namespace Builder

/-- What the constraints stop at is all that the log hears. -/
theorem call_invalidations_of_error {e : Failure}
    (h : (b.call (.step .invalidations)).1 = .error e) :
    (b.call (.step .invalidations)).2 =
      { b with log := b.log.map (Logger.error (toString e)) } := by
  obtain ⟨h', rfl, hfails⟩ := call_invalidations_eq_error.1 h
  rw [call_invalidations, hfails]
  rfl

theorem call_invalidations_fails_iff (hd : b.draft.Consistent) :
    (∃ e, (b.call (.step .invalidations)).1 = .error e) ↔
      ∃ reason ∈ b.draft.reasons, reason.2.family ≠ .constraint := by
  have hfails : (∃ e, (b.call (.step .invalidations)).1 = .error e) ↔
      ¬∃ cs, b.draft.invalidations.result = .ok cs := by
    simp only [call_invalidations_eq_error]
    cases b.draft.invalidations.result <;> simp
  rw [hfails, hd.exists_invalidations]
  simp only [← Node.family_eq_constraint, Classical.not_forall, exists_prop, ne_eq]

end Builder

/-- A reason that is no constraint stops the constraints on invalid parameters. After any calls from
an empty draft they fail to be built if and only if there is such a reason. The failure tells the
first parameter that has one, and the place of its first one, counted from one. It comes with a
constraint for each parameter before: those that would be built there if nothing were recorded from
this parameter on. It is the one message for the log, the draft stays as it is, and so asking again
gives the same. -/
theorem unfit_reason_halts {options : BuildOptions} (hempty : b.draft = { options })
    (calls : List Call) :
    let b' := (b.run calls).2
    let d := b'.draft
    ((∃ e, (b'.call (.step .invalidations)).1 = .error e) ↔
      ∃ reason ∈ d.reasons, reason.2.family ≠ .constraint) ∧
    ∀ e, (b'.call (.step .invalidations)).1 = .error e → ∃ pid p k built all,
      d.params[pid]? = some p ∧ d.StopsAt pid k ∧
      e = .halted ⟨.notACondition (k + 1) p.name, built⟩ ∧
      ((⟨b'.log, d.reasonsBelow pid⟩ : Builder L).call (.step .invalidations)).1 =
        .ok (.constraints all) ∧
      built.length = pid ∧ built = all.take pid ∧
      (b'.call (.step .invalidations)).2 = ⟨b'.log.map (Logger.error (toString e)), d⟩ ∧
      ((b'.call (.step .invalidations)).2.call (.step .invalidations)).1 = .error e := by
  intro b' d
  have hd : d.Consistent := Builder.run_consistent calls (hempty ▸ .empty options)
  refine ⟨Builder.call_invalidations_fails_iff hd, fun e he => ?_⟩
  have hafter := Builder.call_invalidations_of_error he
  obtain ⟨h, rfl, hfails⟩ := Builder.call_invalidations_eq_error.1 he
  obtain ⟨p, k, all, hp, hstops, hcause, hall, hbuilt⟩ := Draft.stopsAt_of_halted hfails
  refine ⟨_, p, k, h.built, all, hp, hstops, ?_, ?_, rfl, hbuilt, hafter, ?_⟩
  · rw [← hcause]
  · exact Builder.call_invalidations_eq_ok.2 hall
  · rw [hafter]
    exact Builder.call_invalidations_eq_error.2 ⟨h, rfl, hfails⟩

/-- Behind a constraint, the second reason for the second parameter, and the third one as well. -/
theorem unfit_reason_halts_second :
    let calls : List Call :=
      [.step (.declare "bool" "a" []), .step (.declare "bool" "b" []),
        .step (.record ["b"] (.constraint (.param 0))), .step (.record ["b", "b"] (.const "c"))]
    let b : Builder MessageLog := .new
    let b' := (b.run calls).2
    let e : Failure := .halted ⟨.notACondition 2 "b", [.not (.invalid 0)]⟩
    (b'.call (.step .invalidations)).1 = .error e ∧ b'.draft.StopsAt 1 1 ∧
      (b'.call (.step .invalidations)).2 = ⟨b'.log.map (Logger.error (toString e)), b'.draft⟩ ∧
      ((b'.call (.step .invalidations)).2.call (.step .invalidations)).1 = .error e := by
  intro calls b b' e
  have hdraft : b'.draft =
      { params := [.boolean "a", .boolean "b"]
        reasons := [(1, .constraint (.param 0)), (1, .const "c"), (1, .const "c")] } := rfl
  have hcall : (b'.call (.step .invalidations)).1 = .error e := by
    rw [Builder.call_invalidations_eq_error, hdraft]
    exact ⟨_, rfl, rfl⟩
  obtain ⟨-, hfails⟩ := unfit_reason_halts (b := b) rfl calls
  obtain ⟨pid, p, k, built, all, -, hstops, he, -, rfl, -, hafter, hagain⟩ := hfails e hcall
  injection he with he
  injection he with hcause hbuilt
  injection hcause with hk
  cases hbuilt
  cases hk
  exact ⟨hcall, hstops, hafter, hagain⟩

end TWay
