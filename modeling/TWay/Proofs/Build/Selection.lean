import Mathlib.Data.List.Destutter
import TWay.Proofs.Build.Report
import TWay.Proofs.Build.Strength

/-!
# Names in a strength

A strength can be asked for by names. The first name that cannot stand in a strength is what the
request fails with. Where there is none, the names only matter as a set: the strength is over the
parameters that one of them stands for, each once and in ascending order, however the names are
ordered, repeated or overlap (`named_strength_selects`).
-/

namespace TWay

/-- The place is that of the first parameter with this name. -/
structure Params.FirstNamed (params : Params) (name : String) (pid : ParamId) : Prop where
  here : ∃ p, params[pid]? = some p ∧ p.name = name
  first : ∀ earlier < pid, ∀ p, params[earlier]? = some p → p.name ≠ name

theorem Params.idOf?_eq_some_iff_firstNamed {params : Params} {name : String} {pid : ParamId} :
    params.idOf? name = some pid ↔ params.FirstNamed name pid := by
  rw [idOf?, findIdx?_eq_some_iff_first]
  simp only [beq_iff_eq, beq_eq_false_iff_ne]
  exact ⟨fun h => ⟨h.1, h.2⟩, fun h => ⟨h.here, h.first⟩⟩

/-- A list that ascends, and has the members of another one, is what comes of that one by sorting it
and dropping each entry that repeats the one before it. -/
theorem eq_destutter_mergeSort {xs ys : List Nat} (hxs : xs.Pairwise (· < ·))
    (hmem : ∀ x, x ∈ xs ↔ x ∈ ys) : xs = ys.mergeSort.destutter (· ≠ ·) := by
  have hsorted : ys.mergeSort.Pairwise (· ≤ ·) := by
    have htrans (a b c : Nat) : decide (a ≤ b) → decide (b ≤ c) → decide (a ≤ c) := by
      simpa using Nat.le_trans
    have htotal (a b : Nat) : decide (a ≤ b) || decide (b ≤ a) := by simpa using Nat.le_total a b
    simpa using List.pairwise_mergeSort htrans htotal ys
  rw [hsorted.destutter_eq_dedup]
  have hperm : xs.Perm ys.mergeSort.dedup := by
    refine (List.perm_ext_iff_of_nodup (hxs.imp Nat.ne_of_lt) (List.nodup_dedup _)).2 fun x => ?_
    rw [List.mem_dedup, List.mem_mergeSort, hmem]
  exact hperm.eq_of_pairwise (fun a b _ _ => Nat.le_antisymm) (hxs.imp Nat.le_of_lt)
    (hsorted.sublist (List.dedup_sublist _))

namespace Draft

variable {L : Type} [Logger L] {d : Draft} {name : String} {names : List String} {pid : ParamId}
  {e : BuildError}

/-! ## One name -/

/-- What a name in a strength stands for: each parameter that takes part in the default coverage, or
the first one with this name. -/
inductive StandsFor (d : Draft) : String → ParamId → Prop where
  | eligible {pid : ParamId} {p : Param} (hp : d.params[pid]? = some p) (haux : p.aux = false)
      (hstatic : p.isAuto = false) : d.StandsFor "default" pid
  | named {name : String} {pid : ParamId} (hname : name ≠ "default")
      (hfirst : d.params.FirstNamed name pid) : d.StandsFor name pid

/-- Why a name cannot stand in a strength: it is that of no parameter, or of a computed one. -/
inductive Refuses (d : Draft) : String → BuildError → Prop where
  | unknown {name : String} (hname : name ≠ "default")
      (hmissing : name ∉ d.params.map Param.name) : d.Refuses name (.unknownParam name)
  | auto {name : String} {pid : ParamId} {p : Param} (hname : name ≠ "default")
      (hfirst : d.params.FirstNamed name pid) (hp : d.params[pid]? = some p)
      (hauto : p.isAuto = true) : d.Refuses name (.autoInStrength name)

/-- The parameters that a name stands for, in the order in which they are found. -/
def selected (d : Draft) (name : String) : List ParamId :=
  if name = "default" then d.eligible else (d.params.idOf? name).toList

theorem mem_selected : pid ∈ d.selected name ↔ d.StandsFor name pid := by
  unfold selected
  constructor
  · intro h
    split at h
    · rename_i hdefault
      obtain ⟨p, hp, haux, hstatic⟩ := mem_eligible.1 h
      exact hdefault ▸ .eligible hp haux hstatic
    · rename_i hname
      exact .named hname (Params.idOf?_eq_some_iff_firstNamed.1 (Option.mem_toList.1 h))
  · rintro (⟨hp, haux, hstatic⟩ | ⟨hname, hfirst⟩)
    · rw [if_pos rfl]
      exact mem_eligible.2 ⟨_, hp, haux, hstatic⟩
    · rw [if_neg hname]
      exact Option.mem_toList.2 (Params.idOf?_eq_some_iff_firstNamed.2 hfirst)

theorem named_of_refuses (h : d.Refuses name e) : (d.named name : Attempt L _ _) = .fail e := by
  cases h with
  | unknown hname hmissing => simp [named, hname, Params.idOf?_eq_none_iff.2 hmissing]
  | auto hname hfirst hp hauto =>
    simp [named, hname, Params.idOf?_eq_some_iff_firstNamed.2 hfirst, hp, hauto]

theorem named_of_not_refuses (h : ∀ e, ¬d.Refuses name e) :
    (d.named name : Attempt L _ _) = .ok (d.selected name) := by
  unfold named selected
  by_cases hname : name = "default"
  · simp [hname]
  · cases hid : d.params.idOf? name with
    | none => exact absurd (.unknown hname (Params.idOf?_eq_none_iff.1 hid)) (h _)
    | some pid =>
      obtain ⟨p, hp⟩ := Params.exists_of_idOf? hid
      have hfirst := Params.idOf?_eq_some_iff_firstNamed.1 hid
      have hstatic : p.isAuto = false :=
        Bool.eq_false_iff.2 fun hauto => h _ (.auto hname hfirst hp hauto)
      simp [hname, hp, hstatic]

/-! ## Several names -/

theorem mapM_named_of_not_refuses (h : ∀ name ∈ names, ∀ e, ¬d.Refuses name e) :
    (names.mapM d.named : Attempt L _ _) = .ok (names.map d.selected) := by
  induction names with
  | nil => rfl
  | cons name names ih =>
    rw [List.forall_mem_cons] at h
    rw [List.mapM_cons, named_of_not_refuses h.1, ih h.2]
    rfl

/-- The names behind the first one that is refused are not looked at. -/
theorem mapM_named_of_refuses {before : List String}
    (hbefore : ∀ n ∈ before, ∀ e, ¬d.Refuses n e) (h : d.Refuses name e) (after : List String) :
    ((before ++ name :: after).mapM d.named : Attempt L _ _) = .fail e := by
  rw [List.mapM_append, mapM_named_of_not_refuses hbefore, List.mapM_cons, named_of_refuses h]
  rfl

/-- The parameters that one of the names stands for, each once and in ascending order. -/
def selection (d : Draft) (names : List String) : List ParamId :=
  (List.range d.params.length).filter (names.flatMap d.selected).contains

theorem selection_ascending (d : Draft) (names : List String) :
    (d.selection names).Pairwise (· < ·) := List.pairwise_lt_range.filter _

theorem mem_selection : pid ∈ d.selection names ↔ ∃ name ∈ names, d.StandsFor name pid := by
  have hthere : ∀ name, d.StandsFor name pid → pid < d.params.length := by
    rintro name (⟨hp, -, -⟩ | ⟨-, hfirst⟩)
    · exact (List.getElem?_eq_some_iff.1 hp).1
    · obtain ⟨p, hp, -⟩ := hfirst.here
      exact (List.getElem?_eq_some_iff.1 hp).1
  simp only [selection, List.mem_filter, List.mem_range, List.contains_iff_mem, List.mem_flatMap,
    mem_selected]
  refine ⟨fun h => h.2, fun h => ⟨?_, h⟩⟩
  obtain ⟨name, -, hstands⟩ := h
  exact hthere name hstands

theorem selection_congr {names' : List String} (h : ∀ name, name ∈ names' ↔ name ∈ names) :
    d.selection names' = d.selection names := by
  refine List.filter_congr fun pid _ => ?_
  simp only [List.contains_eq_mem, List.mem_flatMap, h]

theorem selection_default (d : Draft) : d.selection ["default"] = d.eligible := by
  have hselected : ["default"].flatMap d.selected = d.eligible := by simp [selected]
  refine List.filter_congr fun pid hpid => ?_
  rw [hselected, Bool.eq_iff_iff, List.contains_iff_mem, eligible, List.mem_filter]
  exact and_iff_right hpid

end Draft

/-! ## Calls -/

namespace Step

variable {L α β : Type} {b : Builder L}

/-- What is read without a message is there for what comes next. -/
theorem reads_bind_of_ok {f : Draft → Attempt L BuildError α} {g : α → Step L β} {a : α}
    (h : f b.draft = .ok a) : (reads f >>= g) b = g a b := by
  have hread : reads f b = (.ok a, b) := by
    rw [reads, attempt, h]
    rfl
  exact bind_of_ok hread

variable [Logger L] {names : List String} {e : BuildError}

theorem addStrength_apply (pids : List ParamId) (degree : Nat) (b : Builder L) :
    addStrength pids degree b =
      if pids.length < degree then
        (.error (.refused (.strengthTooLarge pids.length degree)),
          b.reportError (toString (BuildError.strengthTooLarge pids.length degree)))
      else
        (.ok ⟨pids, degree⟩,
          { b with draft :=
            { b.draft with strengths := b.draft.strengths ++ [⟨pids, degree⟩] } }) := by
  unfold addStrength
  split <;> rfl

theorem reads_bind_of_fail {f : Draft → Attempt L BuildError α} {g : α → Step L β}
    (h : f b.draft = .fail e) :
    (reads f >>= g) b = (.error (.refused e), b.reportError (toString e)) := by
  have hread : reads f b = (.error (.refused e), b.reportError (toString e)) := by
    rw [reads, attempt, h]
    rfl
  exact bind_of_error hread

theorem defaultStrength_apply (degree : Nat) (b : Builder L) :
    defaultStrength degree b = addStrength b.draft.eligible degree b := reads_bind_of_ok rfl

theorem namedStrength_of_refuses {before : List String} {name : String}
    (hbefore : ∀ n ∈ before, ∀ e, ¬b.draft.Refuses n e) (h : b.draft.Refuses name e)
    (after : List String) (degree : Nat) :
    namedStrength (before ++ name :: after) degree b =
      (.error (.refused e), b.reportError (toString e)) :=
  reads_bind_of_fail (Draft.mapM_named_of_refuses hbefore h after)

/-- Where no name is refused, all that matters of the names is what is selected by them. -/
theorem namedStrength_of_not_refuses (h : ∀ name ∈ names, ∀ e, ¬b.draft.Refuses name e)
    (degree : Nat) :
    namedStrength names degree b = addStrength (b.draft.selection names) degree b := by
  rw [namedStrength, reads_bind_of_ok (Draft.mapM_named_of_not_refuses h)]
  exact reads_bind_of_ok rfl

end Step

namespace Builder

variable {L : Type} [Logger L]

theorem call_namedStrength (names : List String) (degree : Nat) (b : Builder L) :
    b.call (.step (.namedStrength names degree)) =
      (.strength <$> (Step.namedStrength names degree b).1,
        (Step.namedStrength names degree b).2) := Step.map_apply _ _ b

theorem call_defaultStrength (degree : Nat) (b : Builder L) :
    b.call (.step (.defaultStrength degree)) =
      (.strength <$> (Step.defaultStrength degree b).1, (Step.defaultStrength degree b).2) :=
  Step.map_apply _ _ b

end Builder

/-- Names in a strength count as a set. If one of them cannot stand in a strength, the first such
name is what the call fails with, and nothing else happens but that this is reported. Otherwise the
call is about the parameters that one of the names stands for, each once and in ascending order, as
they come of sorting what the names stand for and dropping repetitions. If they are fewer than are
to be combined the call fails with their number, and else it gives and records the strength over
them. So it makes no difference in which order or how often the same names come, and the name for
the default alone is as good as asking for the default. -/
theorem named_strength_selects {L : Type} [Logger L] (b : Builder L) (names : List String)
    (degree : Nat) :
    let call (names : List String) := b.call (.step (.namedStrength names degree))
    let d := b.draft
    ((∃ name ∈ names, ∃ e, d.Refuses name e) →
      ∃ before name after e, names = before ++ name :: after ∧
        (∀ n ∈ before, ∀ e, ¬d.Refuses n e) ∧ d.Refuses name e ∧
        call names = (.error (.refused e), b.reportError (toString e))) ∧
    ((∀ name ∈ names, ∀ e, ¬d.Refuses name e) →
      (∃ pids : List ParamId, pids.Pairwise (· < ·) ∧
        (∀ pid, pid ∈ pids ↔ ∃ name ∈ names, d.StandsFor name pid) ∧
        pids = (names.flatMap d.selected).mergeSort.destutter (· ≠ ·) ∧
        call names =
          if pids.length < degree then
            (.error (.refused (.strengthTooLarge pids.length degree)),
              b.reportError (toString (BuildError.strengthTooLarge pids.length degree)))
          else
            (.ok (.strength ⟨pids, degree⟩),
              { b with draft := { d with strengths := d.strengths ++ [⟨pids, degree⟩] } })) ∧
      ∀ names', (∀ name, name ∈ names' ↔ name ∈ names) → call names' = call names) ∧
    call ["default"] = b.call (.step (.defaultStrength degree)) := by
  intro call d
  refine ⟨fun hrefused => ?_, fun hgood => ⟨?_, fun names' hsame => ?_⟩, ?_⟩
  · obtain ⟨before, name, after, rfl, hbefore, e, he⟩ := exists_first hrefused
    have hbefore : ∀ n ∈ before, ∀ e, ¬d.Refuses n e := fun n hn => not_exists.1 (hbefore n hn)
    refine ⟨before, name, after, e, rfl, hbefore, he, ?_⟩
    have hfail := Step.namedStrength_of_refuses hbefore he after degree
    show b.call _ = _
    rw [Builder.call_namedStrength, hfail]
    rfl
  · refine ⟨d.selection names, d.selection_ascending names, fun pid => Draft.mem_selection, ?_, ?_⟩
    · refine eq_destutter_mergeSort (d.selection_ascending names) fun pid => ?_
      simp only [Draft.mem_selection, List.mem_flatMap, Draft.mem_selected]
    · show b.call _ = _
      rw [Builder.call_namedStrength, Step.namedStrength_of_not_refuses hgood,
        Step.addStrength_apply]
      split <;> rfl
  · have hgood' : ∀ name ∈ names', ∀ e, ¬d.Refuses name e :=
      fun name hname => hgood name ((hsame name).1 hname)
    show b.call _ = b.call _
    rw [Builder.call_namedStrength, Builder.call_namedStrength,
      Step.namedStrength_of_not_refuses hgood, Step.namedStrength_of_not_refuses hgood',
      Draft.selection_congr hsame]
  · have hgood : ∀ name ∈ ["default"], ∀ e, ¬d.Refuses name e := by
      rintro name hname e (⟨hother, -⟩ | ⟨hother, -, -, -⟩) <;>
        exact hother (List.mem_singleton.1 hname)
    show b.call _ = _
    rw [Builder.call_namedStrength, Builder.call_defaultStrength,
      Step.namedStrength_of_not_refuses hgood, Draft.selection_default, Step.defaultStrength_apply]

end TWay
