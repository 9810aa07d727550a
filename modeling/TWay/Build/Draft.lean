import TWay.Assignment
import TWay.Build.Param
import TWay.Coverage.Strength

/-!
# A model in the making

A `Draft` holds what has been built of a model. A `Builder` (`Assembler`) is a draft with a log, or
without one. Here is what can be read from a draft; a log at hand is told what goes wrong.
-/

namespace TWay

/-- What the tests of a model have to contain beyond the strengths (`Seed`). -/
inductive Seed where
  /-- A test that makes these choices. -/
  | tuple (id : Nat) (choices : List Choice)
  /-- A test in which the constraint holds. -/
  | constraint (id : Nat) (c : Constraint)

/-- What can be set about the building of a model (`AssemblerOptions`). -/
structure BuildOptions where
  /-- The precision of a relation whose token has none. -/
  defaultPrecision : Float := 0.0
deriving DecidableEq

/-- What has been built so far: all that an `Assembler` holds but its logger. -/
structure Draft where
  options : BuildOptions := {}
  params : Params := []
  constraints : List Constraint := []
  /-- The recorded reasons for a parameter to be invalid, in the order of recording. -/
  reasons : List (ParamId × Node) := []
  strengths : List Strength := []
  seeds : List Seed := []

/-- A draft, and where the messages about it go, if anywhere (`Assembler`). -/
structure Builder (L : Type) where
  log : Option L
  draft : Draft := {}

namespace Draft

variable {L : Type} [Logger L]

/-- The warning about a name that no parameter has. -/
def missing (name : String) : String := String.join ["parameter ", name, " not found"]

/-- The tree that reads a parameter (`build_param_reference`). -/
def reference (d : Draft) (name : String) : Attempt L BuildError Node :=
  match d.params.idOf? name with
  | none => .fail (.unknownParam name)
  | some pid =>
    match d.params[pid]? with
    | none => .fail (.unknownParam name)
    | some p => .ok (p.type.reference pid)

/-- The parameters that take part in the default coverage (`eligible_params`). -/
def eligible (d : Draft) : List ParamId :=
  (List.range d.params.length).filter fun pid => (d.params[pid]?).any Param.isCoverable

/--
The choice of a value by its spelling. A parameter that is not there is only worth a warning, and
gives no choice (`build_pvpair`).
-/
def choice? (d : Draft) (name : String) (value : Node) : Attempt L BuildError (Option Choice) :=
  let text := value.text
  if text.isEmpty then .fail .emptyValue
  else
    match (d.params.idOf? name).bind fun pid => (d.params[pid]?).map fun p => (pid, p) with
    | none => do
      .warn (missing name)
      return none
    | some (pid, p) =>
      if p.isAuto then .fail (.autoInChoice name)
      else
        match p.valueId? text with
        | some vid => .ok (some ⟨pid, vid⟩)
        | none => .fail (.valueNotFound name text)

/-- The parameters that a name in a strength stands for (the loop of `named_strength`). -/
def named (d : Draft) (name : String) : Attempt L BuildError (List ParamId) :=
  if name == "default" then .ok d.eligible
  else
    match (d.params.idOf? name).bind fun pid => (d.params[pid]?).map fun p => (pid, p) with
    | none => .fail (.unknownParam name)
    | some (pid, p) => if p.isAuto then .fail (.autoInStrength name) else .ok [pid]

end Draft

end TWay
