import Mathlib.Data.List.Nodup
import TWay.Assignment

/-!
# An assignment as a partial map

An assignment keeps its slots in a list, which grows as far as a parameter that is set and never
becomes shorter. What it says is a partial map: an edit writes the slot of one parameter and no
other (`Assignment.get?_apply`), so that the slot of a parameter is the one that the last edit of
that parameter left there (`Assignment.get?_edited`). The list says one thing more, how far it has
grown (`Assignment.length_edited`), and two assignments are equal when they agree in both
(`Assignment.eq_iff`). `assignment_is_partial_map` puts this together for any edits of an assignment
that is made from choices.
-/

namespace TWay

/-- A change to an assignment. -/
inductive Edit where
  | set (pid : ParamId) (slot : Slot)
  | choose (pid : ParamId) (vid : ValueId)
  | leaveInvalid (pid : ParamId)
  | unset (pid : ParamId)

namespace Edit

/-- The parameter that is changed. -/
def pid : Edit → ParamId
  | set pid _ | choose pid _ | leaveInvalid pid | unset pid => pid

/-- The slot that the parameter has afterwards. -/
def slot? : Edit → Option Slot
  | set _ slot => some slot
  | choose _ vid => some (.value vid)
  | leaveInvalid _ => some .invalid
  | unset _ => none

/-- The assignment after the change. -/
def apply (a : Assignment) : Edit → Assignment
  | set pid slot => a.set pid slot
  | choose pid vid => a.choose pid vid
  | leaveInvalid pid => a.leaveInvalid pid
  | unset pid => a.unset pid

/-- A parameter is set, and not cleared. -/
def sets (e : Edit) : Bool := e.slot?.isSome

/-- One more than the last of the parameters that are ever set, and zero where none is. -/
def reach (edits : List Edit) : Nat := ((edits.filter sets).map pid).max?.elim 0 (· + 1)

theorem eq_unset_of_slot? {e : Edit} (h : e.slot? = none) : e = .unset e.pid := by
  cases e with
  | unset pid => rfl
  | set | choose | leaveInvalid => cases h

theorem reach_cons (e : Edit) (edits : List Edit) :
    reach (e :: edits) = max (if e.sets then e.pid + 1 else 0) (reach edits) := by
  unfold reach
  by_cases he : e.sets = true
  · rw [List.filter_cons_of_pos he, List.map_cons, List.max?_cons, if_pos he]
    cases ((edits.filter sets).map pid).max? with
    | none => simp
    | some last => simp [Nat.add_max_add_right]
  · rw [List.filter_cons_of_neg he, if_neg he, Nat.zero_max]

end Edit

namespace Assignment

variable {a : Assignment} {pid : ParamId}

/-- The assignment after one change after the other. -/
def edited (a : Assignment) (edits : List Edit) : Assignment := edits.foldl Edit.apply a

/-! ## Slots -/

theorem get?_empty (pid : ParamId) : empty.get? pid = none := rfl

/-- Slots that are only there to reach a parameter say nothing. -/
theorem get?_set (a : Assignment) (pid q : ParamId) (slot : Slot) :
    (a.set pid slot).get? q = if q = pid then some slot else a.get? q := by
  have hreach (i n : Nat) : i < n + (i + 1 - n) := by omega
  have hlen : pid < (a.slots ++ List.replicate (pid + 1 - a.slots.length) none).length := by
    rw [List.length_append, List.length_replicate]
    exact hreach pid a.slots.length
  unfold set get?
  by_cases hq : q = pid
  · rw [if_pos hq, hq, List.getElem?_set_self hlen, Option.join_some]
  · rw [if_neg hq, List.getElem?_set_ne (Ne.symm hq), List.getElem?_append]
    split
    · rfl
    · rename_i hge
      rw [List.getElem?_replicate, List.getElem?_eq_none (Nat.le_of_not_lt hge)]
      split <;> rfl

theorem valueId?_eq_some {vid : ValueId} :
    a.valueId? pid = some vid ↔ a.get? pid = some (.value vid) := by
  unfold valueId?
  split
  · rename_i vid' hget
    simp [hget]
  · rename_i hother
    simpa using hother vid

theorem get?_unset (a : Assignment) (pid q : ParamId) :
    (a.unset pid).get? q = if q = pid then none else a.get? q := by
  unfold unset get?
  rw [List.getElem?_set]
  by_cases hq : q = pid
  · rw [if_pos hq, if_pos hq.symm]
    split <;> rfl
  · rw [if_neg hq, if_neg (Ne.symm hq)]

/-- A change writes the slot of its own parameter and no other. -/
theorem get?_apply (a : Assignment) (e : Edit) (q : ParamId) :
    (e.apply a).get? q = if q = e.pid then e.slot? else a.get? q := by
  cases e with
  | set pid slot => exact get?_set a pid q slot
  | choose pid vid => exact get?_set a pid q (.value vid)
  | leaveInvalid pid => exact get?_set a pid q .invalid
  | unset pid => exact get?_unset a pid q

/-- The last edit of a parameter counts. -/
theorem get?_edited (a : Assignment) (edits : List Edit) (pid : ParamId) :
    (a.edited edits).get? pid =
      ((edits.reverse.find? fun e => e.pid == pid).map Edit.slot?).getD (a.get? pid) := by
  induction edits generalizing a with
  | nil => rfl
  | cons e edits ih =>
    rw [edited, List.foldl_cons, ← edited, ih, get?_apply, List.reverse_cons, List.find?_append]
    cases edits.reverse.find? fun e => e.pid == pid with
    | some last => rfl
    | none =>
      by_cases he : e.pid = pid
      · simp [he]
      · simp [he, Ne.symm he]

theorem get?_edited_empty (edits : List Edit) (pid : ParamId) :
    (empty.edited edits).get? pid =
      (edits.reverse.find? fun e => e.pid == pid).bind Edit.slot? := by
  rw [get?_edited, get?_empty]
  cases edits.reverse.find? fun e => e.pid == pid <;> rfl

/-- The first hit from behind has no other one after it. -/
theorem find?_reverse_eq_some {edits : List Edit} {e : Edit} :
    (edits.reverse.find? fun e => e.pid == pid) = some e ↔
      ∃ before after, edits = before ++ e :: after ∧ e.pid = pid ∧ ∀ e' ∈ after, e'.pid ≠ pid := by
  rw [List.find?_eq_some_iff_append]
  constructor
  · rintro ⟨hpid, after, before, heq, hafter⟩
    refine ⟨before.reverse, after.reverse, ?_, by simpa using hpid, fun e' he' => ?_⟩
    · rw [← List.reverse_reverse edits, heq]
      simp
    · simpa using hafter e' (List.mem_reverse.1 he')
  · rintro ⟨before, after, rfl, hpid, hafter⟩
    refine ⟨by simpa using hpid, after.reverse, before.reverse, by simp, fun e' he' => ?_⟩
    simpa using hafter e' (List.mem_reverse.1 he')

/-- A slot is there if the last edit of its parameter wrote it. -/
theorem get?_edited_eq_some {edits : List Edit} {slot : Slot} :
    (empty.edited edits).get? pid = some slot ↔
      ∃ before e after, edits = before ++ e :: after ∧ e.pid = pid ∧ e.slot? = some slot ∧
        ∀ e' ∈ after, e'.pid ≠ pid := by
  rw [get?_edited_empty, Option.bind_eq_some_iff]
  constructor
  · rintro ⟨e, hlast, hslot⟩
    obtain ⟨before, after, heq, hpid, hafter⟩ := find?_reverse_eq_some.1 hlast
    exact ⟨before, e, after, heq, hpid, hslot, hafter⟩
  · rintro ⟨before, e, after, heq, hpid, hslot, hafter⟩
    exact ⟨e, find?_reverse_eq_some.2 ⟨before, after, heq, hpid, hafter⟩, hslot⟩

/-- A parameter that has no slot gets none without being set. -/
theorem get?_edited_of_not_set {edits : List Edit} (h : a.get? pid = none)
    (hedits : ∀ e ∈ edits, e.pid = pid → e.slot? = none) : (a.edited edits).get? pid = none := by
  induction edits generalizing a with
  | nil => exact h
  | cons e edits ih =>
    rw [List.forall_mem_cons] at hedits
    refine ih ?_ hedits.2
    rw [get?_apply]
    split
    · rename_i hpid
      exact hedits.1 hpid.symm
    · exact h

/-- There is no slot if the parameter was not set, or not since it was cleared. -/
theorem get?_edited_eq_none {edits : List Edit} :
    (empty.edited edits).get? pid = none ↔
      (∀ e ∈ edits, e.pid = pid → e.slot? = none) ∨
        ∃ before after, edits = before ++ .unset pid :: after ∧
          ∀ e ∈ after, e.pid = pid → e.slot? = none := by
  constructor
  · intro hnone
    rw [get?_edited_empty, Option.bind_eq_none_iff] at hnone
    cases hlast : edits.reverse.find? fun e => e.pid == pid with
    | none =>
      refine .inl fun e he hpid => ?_
      have hne := List.find?_eq_none.1 hlast e (List.mem_reverse.2 he)
      simp [hpid] at hne
    | some e =>
      obtain ⟨before, after, heq, rfl, hafter⟩ := find?_reverse_eq_some.1 hlast
      rw [Edit.eq_unset_of_slot? (hnone e hlast)] at heq
      exact .inr ⟨before, after, heq, fun e' he' hpid => absurd hpid (hafter e' he')⟩
  · rintro (hnever | ⟨before, after, rfl, hafter⟩)
    · exact get?_edited_of_not_set (get?_empty pid) hnever
    · rw [edited, List.foldl_append, List.foldl_cons, ← edited]
      refine get?_edited_of_not_set ?_ hafter
      rw [get?_apply]
      exact if_pos rfl

/-! ## Parameters that have a slot -/

/-- The parameters that have a slot, in order. -/
def assigned (a : Assignment) : List ParamId :=
  (List.range a.slots.length).filter fun pid => (a.get? pid).isSome

theorem get?_of_length_le (h : a.slots.length ≤ pid) : a.get? pid = none := by
  rw [get?, List.getElem?_eq_none h, Option.join_none]

theorem mem_assigned : pid ∈ a.assigned ↔ (a.get? pid).isSome = true := by
  rw [assigned, List.mem_filter, List.mem_range]
  refine and_iff_right_of_imp fun hsome => Nat.lt_of_not_le fun hle => ?_
  rw [get?_of_length_le hle] at hsome
  cases hsome

theorem nodup_assigned (a : Assignment) : a.assigned.Nodup :=
  List.nodup_range.filter _

theorem length_assigned (a : Assignment) : a.assigned.length = a.size := by
  have hslots : (List.range a.slots.length).map a.get? = a.slots := by
    refine List.ext_getElem (by simp) fun i _ hi => ?_
    rw [List.getElem_map, List.getElem_range, get?, List.getElem?_eq_getElem hi, Option.join_some]
  rw [size, ← hslots, List.countP_map, List.countP_eq_length_filter]
  rfl

theorem isEmpty_iff : a.isEmpty = true ↔ ∀ pid, a.get? pid = none := by
  rw [isEmpty, beq_iff_eq, ← length_assigned, List.length_eq_zero_iff,
    List.eq_nil_iff_forall_not_mem]
  simp [mem_assigned]

/-! ## How far the slots reach -/

theorem length_set (a : Assignment) (pid : ParamId) (slot : Slot) :
    (a.set pid slot).slots.length = max a.slots.length (pid + 1) := by
  simp only [set, List.length_set, List.length_append, List.length_replicate]
  omega

theorem length_unset (a : Assignment) (pid : ParamId) :
    (a.unset pid).slots.length = a.slots.length := List.length_set

theorem length_apply (a : Assignment) (e : Edit) :
    (e.apply a).slots.length = max a.slots.length (if e.sets then e.pid + 1 else 0) := by
  cases e with
  | set pid slot => exact length_set a pid slot
  | choose pid vid => exact length_set a pid (.value vid)
  | leaveInvalid pid => exact length_set a pid .invalid
  | unset pid => exact (length_unset a pid).trans (Nat.max_zero _).symm

theorem length_edited (a : Assignment) (edits : List Edit) :
    (a.edited edits).slots.length = max a.slots.length (Edit.reach edits) := by
  induction edits generalizing a with
  | nil => exact (Nat.max_zero _).symm
  | cons e edits ih =>
    rw [edited, List.foldl_cons, ← edited, ih, length_apply, Edit.reach_cons, Nat.max_assoc]

/-- Assignments are equal when they say the same and reach equally far. -/
theorem eq_iff {a a' : Assignment} :
    a = a' ↔ (∀ pid, a.get? pid = a'.get? pid) ∧ a.slots.length = a'.slots.length := by
  constructor
  · rintro rfl
    exact ⟨fun _ => rfl, rfl⟩
  · rintro ⟨hget, hlength⟩
    obtain ⟨slots⟩ := a
    obtain ⟨slots'⟩ := a'
    refine congrArg mk (List.ext_getElem hlength fun i hi hi' => ?_)
    have hslot := hget i
    simpa [get?, hi, hi'] using hslot

end Assignment

/-- The edits by which an assignment is made from choices. -/
def Choice.edit (c : Choice) : Edit := .choose c.pid c.vid

theorem Assignment.ofChoices_eq_edited (choices : List Choice) :
    ofChoices choices = empty.edited (choices.map Choice.edit) := by
  rw [edited, List.foldl_map]
  rfl

theorem Assignment.edited_ofChoices (choices : List Choice) (edits : List Edit) :
    (ofChoices choices).edited edits = empty.edited (choices.map Choice.edit ++ edits) := by
  rw [ofChoices_eq_edited, edited, edited, edited, List.foldl_append]

/-- An assignment is a partial map from parameters to slots, whatever edits it has gone through
since it was empty or made from choices. The slot of a parameter is the one that the last edit of
the parameter wrote; there is none where it was never set or not since it was cleared. The value of
a parameter is the one in its slot, unless that leaves it invalid. The size is the number of the
parameters that have a slot. An edit leaves the other parameters alone. Two assignments are equal
just if they say the same of every parameter and their slots reach equally far, that is, one beyond
the last parameter that was ever set. Clearing a slot does not change how far they reach. -/
theorem assignment_is_partial_map (choices : List Choice) (edits : List Edit) :
    let history := choices.map Choice.edit ++ edits
    let a := (Assignment.ofChoices choices).edited edits
    (∀ pid slot, a.get? pid = some slot ↔
      ∃ before e after, history = before ++ e :: after ∧ e.pid = pid ∧ e.slot? = some slot ∧
        ∀ e' ∈ after, e'.pid ≠ pid) ∧
    (∀ pid, a.get? pid = none ↔
      (∀ e ∈ history, e.pid = pid → e.slot? = none) ∨
        ∃ before after, history = before ++ .unset pid :: after ∧
          ∀ e ∈ after, e.pid = pid → e.slot? = none) ∧
    (∀ pid vid, a.valueId? pid = some vid ↔ a.get? pid = some (.value vid)) ∧
    (∃ pids : List ParamId, pids.Nodup ∧ (∀ pid, pid ∈ pids ↔ (a.get? pid).isSome) ∧
      a.size = pids.length) ∧
    (a.isEmpty = true ↔ ∀ pid, a.get? pid = none) ∧
    (∀ (e : Edit) pid, pid ≠ e.pid → (e.apply a).get? pid = a.get? pid) ∧
    a.slots.length = Edit.reach history ∧
    (∀ pid, (a.unset pid).slots.length = a.slots.length) ∧
    ∀ choices' edits', a = (Assignment.ofChoices choices').edited edits' ↔
      (∀ pid, a.get? pid = ((Assignment.ofChoices choices').edited edits').get? pid) ∧
        Edit.reach history = Edit.reach (choices'.map Choice.edit ++ edits') := by
  intro history a
  have hhistory : a = Assignment.empty.edited history := Assignment.edited_ofChoices choices edits
  have hreach (edits : List Edit) :
      (Assignment.empty.edited edits).slots.length = Edit.reach edits :=
    (Assignment.length_edited _ edits).trans (Nat.zero_max _)
  refine ⟨fun pid slot => ?_, fun pid => ?_, fun pid vid => Assignment.valueId?_eq_some,
    ⟨a.assigned, a.nodup_assigned, fun pid => Assignment.mem_assigned, a.length_assigned.symm⟩,
    Assignment.isEmpty_iff, fun e pid hne => ?_, ?_, a.length_unset, fun choices' edits' => ?_⟩
  · rw [hhistory]
    exact Assignment.get?_edited_eq_some
  · rw [hhistory]
    exact Assignment.get?_edited_eq_none
  · rw [Assignment.get?_apply, if_neg hne]
  · rw [hhistory, hreach]
  · rw [Assignment.eq_iff, hhistory, Assignment.edited_ofChoices, hreach, hreach]

end TWay
