import TWay.Param

/-!
# Assignments

A partial choice of values for the parameters of a model. A slot holds the place of a value in its
parameter's domain, or says that the parameter is deliberately left invalid. Two assignments are
equal when their slots are: a parameter that was set and cleared again still counts for the length.
-/

namespace TWay

/-- One value for one parameter (`PVPair`). -/
structure Choice where
  pid : ParamId
  vid : ValueId
deriving DecidableEq

/-- What an assignment says of a parameter. -/
inductive Slot where
  | value (vid : ValueId)
  | invalid
deriving DecidableEq

/-- The slots by parameter; a parameter without one is unassigned. -/
structure Assignment where
  slots : List (Option Slot) := []
deriving DecidableEq

namespace Assignment

/-- No parameter is assigned (`new`). -/
def empty : Assignment := ⟨[]⟩

/-- What is said of a parameter; nothing while it is unassigned (`get`). -/
def get? (a : Assignment) (pid : ParamId) : Option Slot := (a.slots[pid]?).join

/-- Slots are added up to the parameter as needed (`set`). -/
def set (a : Assignment) (pid : ParamId) (slot : Slot) : Assignment :=
  ⟨(a.slots ++ List.replicate (pid + 1 - a.slots.length) none).set pid (some slot)⟩

/-- A parameter takes a value of its domain (`with`). -/
def choose (a : Assignment) (pid : ParamId) (vid : ValueId) : Assignment := a.set pid (.value vid)

/-- A parameter is deliberately left invalid (`with_invalid`). -/
def leaveInvalid (a : Assignment) (pid : ParamId) : Assignment := a.set pid .invalid

/-- Clears a slot, which stays in its place (`unset`). -/
def unset (a : Assignment) (pid : ParamId) : Assignment := ⟨a.slots.set pid none⟩

/-- The choices in order; of two for one parameter the later counts (`from_pairs`). -/
def ofChoices (choices : List Choice) : Assignment :=
  choices.foldl (fun a c => a.set c.pid (.value c.vid)) empty

/-- The place of the chosen value, unless the parameter is invalid or unassigned (`value_id`). -/
def valueId? (a : Assignment) (pid : ParamId) : Option ValueId :=
  match a.get? pid with
  | some (.value vid) => some vid
  | _ => none

/-- Whether every choice is made here (`realizes`). -/
def realizes (a : Assignment) (choices : List Choice) : Bool :=
  choices.all fun c => a.valueId? c.pid == some c.vid

/-- The number of parameters that have a slot (`len`). -/
def size (a : Assignment) : Nat := a.slots.countP Option.isSome

/-- Whether no parameter has a slot (`is_empty`). -/
def isEmpty (a : Assignment) : Bool := a.size == 0

end Assignment

end TWay
