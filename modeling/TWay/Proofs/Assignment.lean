import TWay.Proofs.Edits

/-!
# What an assignment says

Of the choices for one parameter the last one counts (`Assignment.get?_ofChoices`), so that choices
which agree on every parameter are all made by the assignment that is made from them
(`Assignment.realizes_ofChoices`). Choices that contradict each other are made by no assignment
(`Assignment.choices_made_iff_consistent`). Two assignments can come to the same for a parameter
without having the same slot, if both leave it invalid (`Assignment.AlikeAt`).
-/

namespace TWay

/-- The slot leaves a parameter with so many values invalid: it says so, or names a value beyond
them. -/
def Slot.LeavesInvalid (count : Nat) : Slot → Prop
  | .value vid => count ≤ vid
  | .invalid => True

/-- No parameter is to have two values. -/
def Choice.Consistent (choices : List Choice) : Prop :=
  ∀ c ∈ choices, ∀ c' ∈ choices, c'.pid = c.pid → c'.vid = c.vid

namespace Assignment

variable {a a' : Assignment} {pid : ParamId} {choices : List Choice} {c : Choice}

/-- The assignments have the same slot for a parameter with so many values, or both leave it
invalid. -/
def AlikeAt (a a' : Assignment) (count : Nat) (pid : ParamId) : Prop :=
  a.get? pid = a'.get? pid ∨
    ∃ slot slot', a.get? pid = some slot ∧ a'.get? pid = some slot' ∧
      slot.LeavesInvalid count ∧ slot'.LeavesInvalid count

/-! ## Choices -/

/-- The last choice for a parameter counts. -/
theorem get?_ofChoices (choices : List Choice) (pid : ParamId) :
    (ofChoices choices).get? pid =
      (choices.reverse.find? fun c => c.pid == pid).map fun c => .value c.vid := by
  rw [ofChoices_eq_edited, get?_edited_empty, ← List.map_reverse, List.find?_map, Option.bind_map]
  exact Option.map_eq_bind.symm

theorem get?_ofChoices_of_agree (hc : c ∈ choices)
    (hagree : ∀ c' ∈ choices, c'.pid = c.pid → c'.vid = c.vid) :
    (ofChoices choices).get? c.pid = some (.value c.vid) := by
  rw [get?_ofChoices]
  cases hfind : choices.reverse.find? fun c' => c'.pid == c.pid with
  | none =>
    have hne := List.find?_eq_none.1 hfind c (List.mem_reverse.2 hc)
    simp at hne
  | some c' =>
    have hmem : c' ∈ choices := List.mem_reverse.1 (List.mem_of_find?_eq_some hfind)
    have hpid : c'.pid = c.pid := by simpa using List.find?_some hfind
    rw [Option.map_some, hagree c' hmem hpid]

/-- One choice for each parameter. -/
theorem get?_ofChoices_of_nodup (h : (choices.map Choice.pid).Nodup) (hc : c ∈ choices) :
    (ofChoices choices).get? c.pid = some (.value c.vid) :=
  get?_ofChoices_of_agree hc fun c' hc' hpid => by rw [List.inj_on_of_nodup_map h hc' hc hpid]

theorem realizes_eq_true :
    a.realizes choices = true ↔ ∀ c ∈ choices, a.get? c.pid = some (.value c.vid) := by
  simp only [realizes, List.all_eq_true, beq_iff_eq, valueId?_eq_some]

theorem realizes_ofChoices (h : (choices.map Choice.pid).Nodup) :
    (ofChoices choices).realizes choices = true :=
  realizes_eq_true.2 fun _ hc => get?_ofChoices_of_nodup h hc

/-! ## Choices that agree -/

theorem consistent_of_realizes (h : a.realizes choices = true) : Choice.Consistent choices := by
  rw [realizes_eq_true] at h
  intro c hc c' hc' hpid
  have hslot := h c' hc'
  rw [hpid, h c hc] at hslot
  simpa using hslot.symm

/-- The first one from behind is the last one. -/
theorem find?_reverse (p : Choice → Bool) (choices : List Choice) :
    choices.reverse.find? p = (choices.filter p).getLast? := by
  rw [List.getLast?_eq_head?_reverse, ← List.filter_reverse, List.head?_filter]

theorem valueId?_ofChoices (choices : List Choice) (pid : ParamId) :
    (ofChoices choices).valueId? pid =
      (choices.filter fun c => c.pid == pid).getLast?.map Choice.vid := by
  rw [valueId?, get?_ofChoices, find?_reverse]
  cases (choices.filter fun c => c.pid == pid).getLast? <;> rfl

/-- Choices are all made by the assignment that is made from them just if they are consistent. In it
a parameter has the value of the last choice for it. More generally, choices are made together just
if each of them is, and no assignment makes choices that contradict each other. -/
theorem choices_made_iff_consistent (choices : List Choice) :
    (∀ pid, (ofChoices choices).valueId? pid =
      (choices.filter fun c => c.pid == pid).getLast?.map Choice.vid) ∧
    ((ofChoices choices).realizes choices = true ↔ Choice.Consistent choices) ∧
    (∀ (a : Assignment) (xs ys : List Choice),
      a.realizes (xs ++ ys) = true ↔ a.realizes xs = true ∧ a.realizes ys = true) ∧
    ∀ (a : Assignment) (xs : List Choice), ¬Choice.Consistent xs → a.realizes xs = false := by
  refine ⟨valueId?_ofChoices choices, ⟨consistent_of_realizes, fun h => ?_⟩, fun a xs ys => ?_,
    fun a xs h => ?_⟩
  · exact realizes_eq_true.2 fun c hc => get?_ofChoices_of_agree hc (h c hc)
  · rw [realizes, List.all_append, Bool.and_eq_true]
    rfl
  · rw [← Bool.not_eq_true]
    exact fun hmade => h (consistent_of_realizes hmade)

end Assignment

end TWay
