import TWay.Build.Step

/-!
# Commands

The steps by which a model is built, as data, so that one can speak of whole runs. `Command.attempt`
says what a step makes of a builder.
-/

namespace TWay

/-- A step in building a model. -/
inductive Command where
  | reference (name : String)
  | boolLiteral (text : String)
  | arith (op : Operator) (lhs rhs : Option Node)
  | unaryArith (op : Operator) (operand : Option Node)
  | cast (operand : Option Node) (target : String)
  | concat (terms : List Node)
  | relation (op : Operator) (lhs rhs : Option Node) (token : String)
  | arithConstraint (op : Operator) (lhs rhs : Option ArithExpr) (precision : Float)
  | stringConstraint (op : Operator) (lhs rhs : Option StrExpr)
  | logical (op : Operator) (lhs rhs : Option Node)
  | unaryLogical (op : Operator) (operand : Option Node)
  | marker (name : String)
  | staticParam (type name : String) (values : List Node)
  | autoParam (type name : String) (rules : List (Node × Node))
  | declare (type name : String) (values : List Node)
  | declareAuto (type name : String) (rules : List (Node × Node))
  | addParam (p : Param)
  | setOption (name : String) (value : Node)
  | addConstraint (c : Constraint)
  | choice (name : String) (value : Node)
  | addSeed (seed : Seed)
  | record (names : List String) (reason : Node)
  | invalidations
  | defaultStrength (degree : Nat)
  | namedStrength (names : List String) (degree : Nat)

/-- What a step gives. -/
inductive Answer where
  | done
  | node (n : Node)
  | marker (c : Option Constraint)
  | param (p : Param)
  | pid (pid : ParamId)
  | choice (c : Option Choice)
  | constraints (cs : List Constraint)
  | strength (s : Strength)

/-- A constraint is a tree. -/
def Answer.constraint (c : Constraint) : Answer := .node (.constraint c)

variable {L : Type} [Logger L]

/-- What a command makes of a builder. -/
def Command.attempt : Command → Step L Answer
  | reference name => .node <$> .reads fun d => d.reference name
  | boolLiteral text => .constraint <$> .reads fun _ => Build.boolLiteral text
  | arith op lhs rhs => .node <$> .reads fun _ => Build.arith op lhs rhs
  | unaryArith op a => .node <$> .reads fun _ => Build.unaryArith op a
  | cast a target => .node <$> .reads fun _ => Build.cast a target
  | concat terms => .node <$> .reads fun _ => Build.concat terms
  | relation op lhs rhs token => .constraint <$> .reads fun d =>
    Build.relation d.options.defaultPrecision op lhs rhs token
  | arithConstraint op lhs rhs precision => .constraint <$> .reads fun _ =>
    Build.arithConstraint op lhs rhs precision
  | stringConstraint op lhs rhs => .constraint <$> .reads fun _ =>
    Build.stringConstraint op lhs rhs
  | logical op lhs rhs => .constraint <$> .reads fun _ => Build.logical op lhs rhs
  | unaryLogical op a => .constraint <$> .reads fun _ => Build.unaryLogical op a
  | marker name => .marker <$> .reads fun d => d.marker? name
  | staticParam type name values => .param <$> .reads fun _ => Build.staticParam type name values
  | autoParam type name rules => .param <$> .reads fun _ => Build.autoParam type name rules
  | declare type name values => .pid <$> .declare (Build.staticParam type name values)
  | declareAuto type name rules => .pid <$> .declare (Build.autoParam type name rules)
  | addParam p => .pid <$> .addParam p
  | setOption name value => (fun _ => .done) <$> .setOption name value
  | addConstraint c => (fun _ => .done) <$> .addConstraint c
  | choice name value => .choice <$> .reads fun d => d.choice? name value
  | addSeed seed => (fun _ => .done) <$> .addSeed seed
  | record names reason => (fun _ => .done) <$> .record reason names
  | invalidations => .constraints <$> .invalidations
  | defaultStrength degree => .strength <$> .defaultStrength degree
  | namedStrength names degree => .strength <$> .namedStrength names degree

end TWay
