import TWay.Build.Invalidation

/-!
# Steps

What can be done to a builder. A step acts on the draft and the log together, and it leaves both
whether it fails or not. Those that change the draft append to one of its lists, or set the
precision that relations get when their token has none.
-/

namespace TWay

/-- What comes of a builder: a result or a failure, and the builder after it. -/
def Step (L α : Type) : Type := Builder L → Except Failure α × Builder L

namespace Step

variable {L α β : Type}

/-- The second step follows a result of the first, on the builder that the first one leaves. -/
def bind (x : Step L α) (f : α → Step L β) : Step L β := fun b =>
  match x b with
  | (.ok a, b) => f a b
  | (.error e, b) => (.error e, b)

instance : Monad (Step L) where
  pure a := fun b => (.ok a, b)
  bind := bind

/-- An attempt with the log, in view of the draft, which stays as it is; a failure of the attempt is
one of the step. -/
def attempt {ε : Type} (failure : ε → Failure) (f : Draft → Attempt L ε α) : Step L α := fun b =>
  let made := f b.draft b.log
  (made.1.mapError failure, { b with log := made.2 })

/-- A step that only reads the draft. -/
def reads (f : Draft → Attempt L BuildError α) : Step L α := attempt .refused f

/-- The draft as it is. -/
def get : Step L Draft := reads .ok

/-- Another draft in place of the one there. -/
def modify (f : Draft → Draft) : Step L Unit := fun b => (.ok (), { b with draft := f b.draft })

/-- The constraint comes last (`add_constraint`). -/
def addConstraint (c : Constraint) : Step L Unit :=
  modify fun d => { d with constraints := d.constraints ++ [c] }

/-- The seed comes last (`push_seed`). -/
def addSeed (seed : Seed) : Step L Unit := modify fun d => { d with seeds := d.seeds ++ [seed] }

variable [Logger L]

/-- A failure, whatever the draft is. -/
def fail (e : BuildError) : Step L α := reads fun _ => .fail e

/-- A warning by itself. -/
def warn (text : String) : Step L Unit := reads fun _ => .warn text

/-- Names are unique; the identifier is the place in the list (`add_param_spec`). -/
def addParam (p : Param) : Step L ParamId := do
  let d ← get
  if (d.params.idOf? p.name).isSome then fail (.duplicateParam p.name)
  else
    modify fun d => { d with params := d.params ++ [p] }
    return d.params.length

/-- Builds a parameter and adds it (`declare_param`, `declare_auto_param`). -/
def declare (p : Attempt L BuildError Param) : Step L ParamId := do addParam (← reads fun _ => p)

/-- The one option there is takes a numeric literal, whose sign does not matter (`set_option`). -/
def setOption (name : String) (value : Node) : Step L Unit :=
  if name != "default_precision" then fail (.unknownOption name)
  else
    match value with
    | .arith (.int i _) => modify fun d => { d with options := ⟨(nearestDouble i).abs⟩ }
    | .arith (.double x _) => modify fun d => { d with options := ⟨x.abs⟩ }
    | _ => fail (.optionValue name)

/-- Records a reason for a parameter. A name without a parameter gives a warning. -/
def recordFor (reason : Node) (name : String) : Step L Unit := do
  match (← get).params.idOf? name with
  | none => warn (Draft.missing name)
  | some pid => modify fun d => { d with reasons := d.reasons ++ [(pid, reason)] }

/-- Records a reason for each named parameter (`record_invalidation_precondition`). -/
def record (reason : Node) : List String → Step L Unit
  | [] => pure ()
  | name :: names => do
    recordFor reason name
    record reason names

/-- The constraints on invalid parameters (`finalize_invalidations`). -/
def invalidations : Step L (List Constraint) := attempt .halted Draft.invalidations

/-- There must be as many parameters as are to be combined (`push_strength`). -/
def addStrength (pids : List ParamId) (degree : Nat) : Step L Strength :=
  if pids.length < degree then fail (.strengthTooLarge pids.length degree)
  else do
    modify fun d => { d with strengths := d.strengths ++ [⟨pids, degree⟩] }
    return ⟨pids, degree⟩

/-- A strength over all eligible parameters (`default_strength`). -/
def defaultStrength (degree : Nat) : Step L Strength := do
  addStrength (← get).eligible degree

/-- A strength over the named parameters, each once and in ascending order (`named_strength`). -/
def namedStrength (names : List String) (degree : Nat) : Step L Strength := do
  let pids := (← reads fun d => names.mapM d.named).flatten
  let d ← get
  addStrength ((List.range d.params.length).filter pids.contains) degree

end Step

end TWay
