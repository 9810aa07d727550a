import TWay.Proofs.Assignment
import TWay.Proofs.Build.Registry
import TWay.Proofs.Eval.Chosen

/-!
# Targets read back

What a strength of a disciplined run asks for can be had: a target makes one choice for each of its
parameters, the assignment that is made from it realizes it, and under that assignment the tree for
each parameter comes to the value that is chosen (`targets_read_back`).
-/

namespace TWay

variable {params : Params} {s : Strength} {targets : List (List Choice)} {target : List Choice}

namespace Strength.WellFormed

/-- A target has one choice for each of its parameters. -/
theorem target_nodup (hs : s.WellFormed params) (ht : s.targets params = .ok targets)
    (htarget : target ∈ targets) : (target.map Choice.pid).Nodup :=
  ((mem_targets hs.lt_length ht).1 htarget).1.nodup hs.nodup

/-- A choice of a target is one of the values of its parameter. -/
theorem target_value (hs : s.WellFormed params) (ht : s.targets params = .ok targets)
    (htarget : target ∈ targets) {c : Choice} (hc : c ∈ target) :
    ∃ p v, params[c.pid]? = some p ∧ p.values[c.vid]? = some v := by
  obtain ⟨hsub, -, hvids⟩ := (mem_targets hs.lt_length ht).1 htarget
  obtain ⟨p, hp, -⟩ := hs.static c.pid (hsub.mem (List.mem_map_of_mem hc))
  have hlt : c.vid < p.values.length := Params.valueCount_of_getElem? hp ▸ hvids c hc
  exact ⟨p, p.values[c.vid], hp, List.getElem?_eq_getElem hlt⟩

end Strength.WellFormed

/-- Every target is a combination of values that can be read. For a strength that has been recorded
in a disciplined run from an empty draft, the choices of a target are for different parameters, and
the assignment that is made from them realizes it. The tree that reads one of the parameters comes
under this assignment to a valid result, the value of the domain that is chosen. -/
theorem targets_read_back {L : Type} [Logger L] {b : Builder L} {options : BuildOptions}
    (hempty : b.draft = { options }) {calls : List Call} (h : b.Disciplined [] calls)
    (hs : s ∈ (b.run calls).2.draft.strengths) :
    let d := (b.run calls).2.draft
    ∃ targets, s.targets d.params = .ok targets ∧ ∀ target ∈ targets,
      (target.map Choice.pid).Nodup ∧
      (Assignment.ofChoices target).realizes target = true ∧
      ∀ c ∈ target, ∃ p v, d.params[c.pid]? = some p ∧ p.values[c.vid]? = some v ∧
        ((b.run calls).2.call (.step (.reference p.name))).1 =
          .ok (.node (p.type.reference c.pid)) ∧
        ∀ policy, Context.node ⟨d.params, .ofChoices target, policy⟩ (p.type.reference c.pid) =
          .ok v.value.evaluation := by
  intro d
  have hd : d.Consistent := Builder.run_consistent calls (hempty ▸ .empty options)
  have hsound : d.Sound := (Builder.run_sound (hempty ▸ .empty options) (by simp) h).1
  have hwell : s.WellFormed d.params := hd.strengths s hs
  obtain ⟨targets, ht⟩ : ∃ targets, s.targets d.params = .ok targets :=
    ⟨_, Strength.targets_eq hwell.lt_length⟩
  refine ⟨targets, ht, fun target htarget => ?_⟩
  have hnodup := hwell.target_nodup ht htarget
  refine ⟨hnodup, Assignment.realizes_ofChoices hnodup, fun c hc => ?_⟩
  obtain ⟨p, v, hp, hv⟩ := hwell.target_value ht htarget hc
  have hid : d.params.idOf? p.name = some c.pid :=
    (Params.idOf?_eq_some_iff hd.names).2 ⟨p, hp, rfl⟩
  have htype : v.value.type = p.type :=
    (hsound.params c.pid p hp).value_type v (List.mem_of_getElem? hv)
  have hreference : ((b.run calls).2.call (.step (.reference p.name))).1 = _ :=
    (Builder.call_reads_eq_ok rfl).2 ⟨_, Draft.reference_eq_ok.2 ⟨c.pid, p, hid, hp, rfl⟩, rfl⟩
  exact ⟨p, v, hp, hv, hreference, fun policy =>
    Context.node_reference_of_chosen hp hv htype (Assignment.get?_ofChoices_of_nodup hnodup hc)⟩

/-- Two parameters of different types. -/
theorem targets_read_back_typed :
    let calls : List Call :=
      [.step (.declare "int" "a" [.arith (.int 7 "7"), .arith (.int 8 "8")]),
        .step (.declare "bool" "b" []), .step (.defaultStrength 2)]
    let b : Builder MessageLog := .new
    let s : Strength := ⟨[0, 1], 2⟩
    let params : Params :=
      [⟨"a", .int, .values [⟨"7", .int 7⟩, ⟨"8", .int 8⟩], false⟩, .boolean "b"]
    let target : List Choice := [⟨0, 1⟩, ⟨1, 0⟩]
    b.draft = {} ∧ b.Disciplined [] calls ∧ s ∈ (b.run calls).2.draft.strengths ∧
      (b.run calls).2.draft.params = params ∧
      (∃ targets, s.targets params = .ok targets ∧ target ∈ targets) ∧
      (Assignment.ofChoices target).realizes target = true ∧
      ∀ policy, Context.node ⟨params, .ofChoices target, policy⟩ (.arith (.param 0 .int)) =
        .ok (.num (.valid (.int 8))) := by
  intro calls b s params target
  have hdisciplined : b.Disciplined [] calls :=
    ⟨.of_literals rfl rfl, .of_literals rfl rfl, .of_literals rfl rfl, trivial⟩
  have hs : s ∈ (b.run calls).2.draft.strengths := by decide +kernel
  have hparams : (b.run calls).2.draft.params = params := rfl
  obtain ⟨targets, ht, hall⟩ := targets_read_back rfl hdisciplined hs
  simp only [hparams] at ht hall
  have htarget : target ∈ targets := (Strength.mem_targets (by decide) ht).2 (by decide)
  obtain ⟨-, hrealizes, hread⟩ := hall target htarget
  obtain ⟨p, v, hp, hv, -, hnode⟩ := hread ⟨0, 1⟩ (List.mem_cons_self ..)
  cases hp
  cases hv
  exact ⟨rfl, hdisciplined, hs, hparams, ⟨targets, ht, htarget⟩, hrealizes, hnode⟩

end TWay
