import TWay.Build.Model
import TWay.Proofs.Build.Message
import TWay.Proofs.Except

/-!
# Attempts with any log

Whatever is built goes the same way with every log, and without one: it comes to the same result,
and the logs hear the same messages (`Attempt.Blind`). The errors among these are those of the
result: one if it is a failure, the message of that failure, and none otherwise. Attempts in a row
keep this, since the first failure ends them, so that each builder has it by the way it is put
together. So what a builder comes to can be followed without a log (`Attempt.result`). One that
gives no warnings has no other messages than that of its failure (`Attempt.Terse`).
-/

namespace TWay

namespace Attempt

variable {L ε ε' α β : Type}

/-! ## Results -/

/-- What an attempt without a log comes to. -/
def result (x : Attempt Empty ε α) : Except ε α := (x none).1

theorem apply_eq (x : Attempt Empty ε α) (log : Option Empty) : x log = (x.result, none) := by
  have hnone (log : Option Empty) : log = none := by
    cases log with
    | none => rfl
    | some log => exact log.elim
  rw [hnone log]
  exact Prod.ext rfl (hnone (x none).2)

@[simp] theorem result_ok (a : α) : (ok a : Attempt Empty ε α).result = .ok a := rfl

@[simp] theorem result_pure (a : α) : (pure a : Attempt Empty ε α).result = .ok a := rfl

@[simp] theorem result_fail [ToString ε] (e : ε) :
    (fail e : Attempt Empty ε α).result = .error e := rfl

@[simp] theorem result_warn (text : String) :
    (warn text : Attempt Empty ε Unit).result = .ok () := rfl

@[simp] theorem result_liftM [ToString ε] (r : Except ε α) :
    (liftM r : Attempt Empty ε α).result = r := by
  cases r <;> rfl

@[simp] theorem result_bind (x : Attempt Empty ε α) (f : α → Attempt Empty ε β) :
    (x >>= f).result = x.result >>= fun a => (f a).result := by
  show (bind x f none).1 = _
  unfold bind
  rw [x.apply_eq none]
  cases x.result <;> rfl

@[simp] theorem result_map (f : α → β) (x : Attempt Empty ε α) :
    (f <$> x).result = f <$> x.result := by
  show (x >>= fun a => pure (f a)).result = _
  rw [result_bind]
  cases x.result <;> rfl

@[simp] theorem result_mapError (f : ε → ε') (x : Attempt Empty ε α) :
    (x.mapError f).result = x.result.mapError f := rfl

section

variable {x : Attempt Empty ε α} {b : β}

theorem bind_eq_ok {f : α → Attempt Empty ε β} :
    (x >>= f).result = .ok b ↔ ∃ a, x.result = .ok a ∧ (f a).result = .ok b := by
  rw [result_bind, TWay.bind_eq_ok]

theorem map_eq_ok {f : α → β} :
    (f <$> x).result = .ok b ↔ ∃ a, x.result = .ok a ∧ f a = b := by
  rw [result_map, TWay.map_eq_ok]

theorem pure_eq_ok {a : α} {c : α} : (pure a : Attempt Empty ε α).result = .ok c ↔ a = c := by
  rw [result_pure, Except.ok.injEq]

/-- What comes out of the attempts on a list comes out of one of them. -/
theorem exists_of_mapM_eq_ok {f : α → Attempt Empty ε β} {as : List α} {bs : List β}
    (h : (as.mapM f).result = .ok bs) (hb : b ∈ bs) : ∃ a ∈ as, (f a).result = .ok b := by
  induction as generalizing bs with
  | nil =>
    cases h
    cases hb
  | cons a as ih =>
    rw [List.mapM_cons] at h
    obtain ⟨first, hfirst, h⟩ := bind_eq_ok.1 h
    obtain ⟨rest, hrest, h⟩ := bind_eq_ok.1 h
    cases pure_eq_ok.1 h
    rcases List.mem_cons.1 hb with rfl | hb
    · exact ⟨a, List.mem_cons_self, hfirst⟩
    · obtain ⟨a', ha', hb'⟩ := ih hrest hb
      exact ⟨a', List.mem_cons_of_mem _ ha', hb'⟩

end

/-! ## What a log hears -/

variable [Logger L]

/-- The result is this one, and whatever log there is hears the messages. -/
def telling (messages : List Message) (r : Except ε α) : Attempt L ε α := fun log =>
  (r, log.map (Logger.hear messages))

theorem ok_eq_telling (a : α) : (ok a : Attempt L ε α) = telling [] (.ok a) := by
  funext log
  rw [telling, Logger.map_hear_nil]
  rfl

theorem telling_error_bind (messages : List Message) (e : ε) (f : α → Attempt L ε β) :
    (telling messages (.error e) >>= f) = telling messages (.error e) := rfl

theorem telling_ok_bind {messages more : List Message} {a : α} {f : α → Attempt L ε β}
    {r : Except ε β} (h : f a = telling more r) :
    (telling messages (.ok a) >>= f) = telling (messages ++ more) r := by
  funext log
  show f a (log.map (Logger.hear messages)) = _
  rw [h, telling, telling, Logger.map_hear_append]

variable {L' : Type} [Logger L'] [ToString ε] [ToString ε']

/-- Two attempts, each with a log of its own kind, go alike: they come to the same result, and the
two logs hear the same messages, whose errors are those of the result. -/
def Alike (x : Attempt L ε α) (x' : Attempt L' ε α) : Prop :=
  ∀ log log', ∃ r messages, x log = (r, log.map (Logger.hear messages)) ∧
    x' log' = (r, log'.map (Logger.hear messages)) ∧ Message.errors messages = reportOf r

theorem Alike.bind {x : Attempt L ε α} {x' : Attempt L' ε α} {f : α → Attempt L ε β}
    {f' : α → Attempt L' ε β} (hx : x.Alike x') (hf : ∀ a, (f a).Alike (f' a)) :
    (x.bind f).Alike (x'.bind f') := by
  intro log log'
  obtain ⟨r, messages, hr, hr', herrors⟩ := hx log log'
  unfold Attempt.bind
  rw [hr, hr']
  cases r with
  | error e => exact ⟨.error e, messages, rfl, rfl, herrors⟩
  | ok a =>
    obtain ⟨r, more, hmade, hmade', hmore⟩ := hf a _ _
    refine ⟨r, messages ++ more, ?_, ?_, ?_⟩
    · rw [Logger.map_hear_append, ← hmade]
    · rw [Logger.map_hear_append, ← hmade']
    · rw [Message.errors_append, herrors, hmore]
      rfl

theorem Alike.mapError {x : Attempt L ε α} {x' : Attempt L' ε α} {f : ε → ε'} (hx : x.Alike x')
    (hf : ∀ e, toString (f e) = toString e) : (x.mapError f).Alike (x'.mapError f) := by
  intro log log'
  obtain ⟨r, messages, hr, hr', herrors⟩ := hx log log'
  refine ⟨r.mapError f, messages, ?_, ?_, ?_⟩
  · rw [Attempt.mapError, hr]
  · rw [Attempt.mapError, hr']
  · cases r with
    | ok a => exact herrors
    | error e => exact herrors.trans (congrArg (fun text => [text]) (hf e).symm)

/-- An attempt that can be made with any log goes alike with all of them. -/
def Blind (x : ∀ {L : Type} [Logger L], Attempt L ε α) : Prop :=
  ∀ (L L' : Type) [Logger L] [Logger L'], (@x L _).Alike (@x L' _)

namespace Blind

variable {x : ∀ {L : Type} [Logger L], Attempt L ε α}

theorem ok (a : α) : Blind (ε := ε) (Attempt.ok a) := fun _ _ _ _ log log' =>
  ⟨.ok a, [], congrFun (ok_eq_telling a) log, congrFun (ok_eq_telling a) log', rfl⟩

theorem pure (a : α) : Blind (ε := ε) (Pure.pure a) := ok a

theorem fail (e : ε) : Blind (α := α) (Attempt.fail e) := fun _ _ _ _ _ _ =>
  ⟨.error e, [.error (toString e)], rfl, rfl, rfl⟩

theorem warn (text : String) : Blind (ε := ε) (Attempt.warn text) := fun _ _ _ _ _ _ =>
  ⟨.ok (), [.warning text], rfl, rfl, rfl⟩

theorem ofExcept (r : Except ε α) : Blind (ε := ε) (liftM r) := by
  cases r with
  | ok a => exact ok a
  | error e => exact fail e

theorem bind {f : ∀ {L : Type} [Logger L], α → Attempt L ε β} (hx : Blind x)
    (hf : ∀ a, Blind (f a)) : Blind (x >>= f) := fun L L' _ _ =>
  Alike.bind (hx L L') fun a => hf a L L'

theorem map (f : α → β) (hx : Blind x) : Blind (f <$> x) := bind hx fun a => pure (f a)

/-- A failure that is told in another way goes with the same message. -/
theorem mapError {f : ε → ε'} (hx : Blind x) (hf : ∀ e, toString (f e) = toString e) :
    Blind (x.mapError f) := fun L L' _ _ => Alike.mapError (hx L L') hf

theorem mapM {f : ∀ {L : Type} [Logger L], α → Attempt L ε β} (hf : ∀ a, Blind (f a))
    (as : List α) : Blind (as.mapM f) := by
  induction as with
  | nil => exact pure []
  | cons a as ih =>
    simp only [List.mapM_cons]
    exact bind (hf a) fun b => bind ih fun bs => pure (b :: bs)

/-- A log does not change the result. -/
theorem result_eq (hx : Blind x) (log : Option L) : (x log).1 = x.result := by
  obtain ⟨r, messages, hr, hr', -⟩ := hx L Empty log none
  rw [result]
  exact (congrArg Prod.fst hr).trans (congrArg Prod.fst hr').symm

end Blind

/-! ## No warnings -/

/-- With any log, there is no other message than that of a failure. -/
def Terse (x : ∀ {L : Type} [Logger L], Attempt L ε α) : Prop :=
  ∀ (L : Type) [Logger L], @x L _ = telling ((reportOf x.result).map .error) x.result

namespace Terse

variable {x : ∀ {L : Type} [Logger L], Attempt L ε α}

theorem eq_telling (hx : Terse x) (L : Type) [Logger L] :
    @x L _ = telling ((reportOf x.result).map .error) x.result := hx L

theorem ok (a : α) : Terse (ε := ε) (Attempt.ok a) := fun _ _ => ok_eq_telling a

theorem pure (a : α) : Terse (ε := ε) (Pure.pure a) := ok a

theorem fail (e : ε) : Terse (α := α) (Attempt.fail e) := fun _ _ => rfl

theorem bind {f : ∀ {L : Type} [Logger L], α → Attempt L ε β} (hx : Terse x)
    (hf : ∀ a, Terse (f a)) : Terse (x >>= f) := by
  intro L _
  have hx := hx.eq_telling L
  show ((@x L _) >>= f) = telling _ (x >>= f).result
  rw [hx, result_bind]
  cases x.result with
  | error e => exact telling_error_bind _ e f
  | ok a => exact telling_ok_bind ((hf a).eq_telling L)

theorem map (f : α → β) (hx : Terse x) : Terse (f <$> x) := bind hx fun a => pure (f a)

theorem mapError {f : ε → ε'} (hx : Terse x) (hf : ∀ e, toString (f e) = toString e) :
    Terse (x.mapError f) := by
  intro L _
  have hx := hx.eq_telling L
  have hreport : reportOf (x.result.mapError f) = reportOf x.result := by
    cases x.result with
    | ok a => rfl
    | error e => exact congrArg (fun text => [text]) (hf e)
  show (@x L _).mapError f = telling _ (x.result.mapError f)
  rw [hx, ← hreport]
  rfl

theorem blind (hx : Terse x) : Blind x := fun L L' _ _ log log' =>
  ⟨x.result, (reportOf x.result).map .error, congrFun (hx L) log, congrFun (hx L') log',
    errors_map_error _⟩

end Terse

end Attempt

open Attempt (Blind Terse)

/-! ## Trees -/

namespace Node

theorem expectArith_blind (n : Node) : Blind n.expectArith := by
  cases n with
  | arith e => exact .ok e
  | string e => exact .fail _
  | constraint c => exact .fail _

theorem expectString_blind (n : Node) : Blind n.expectString := by
  cases n with
  | arith e => exact .fail _
  | string e => exact .ok e
  | constraint c => exact .fail _

theorem expectConstraint_blind (n : Node) : Blind n.expectConstraint := by
  cases n with
  | arith e => exact .fail _
  | string e => exact .fail _
  | constraint c => exact .ok c

end Node

namespace Build

variable {α : Type} (op : Operator)

theorem operand_blind (a : Option α) : Blind (operand a) := by
  cases a with
  | none => exact .fail _
  | some x => exact .ok x

theorem operands_blind (lhs rhs : Option α) : Blind (operands lhs rhs) :=
  .bind (operand_blind lhs) fun _ => .bind (operand_blind rhs) fun _ => .pure _

theorem operator_blind (use : OperatorUse) (a : Option α) : Blind (operator op use a) := by
  cases a with
  | none => exact .fail _
  | some x => exact .ok x

theorem boolLiteral_blind (text : String) : Blind (boolLiteral text) := by
  unfold boolLiteral
  split
  · exact .ok _
  · exact .ok _
  · exact .fail _

theorem arith_blind (lhs rhs : Option Node) : Blind (arith op lhs rhs) := by
  refine .bind (operands_blind lhs rhs) fun (l, r) => ?_
  refine .bind l.expectArith_blind fun x => .bind r.expectArith_blind fun y => ?_
  refine .bind (operator_blind op _ _) fun arithOp => ?_
  split
  · exact .fail _
  · exact .pure _

theorem unaryArith_blind (a : Option Node) : Blind (unaryArith op a) := by
  refine .bind (operand_blind a) fun n => .bind n.expectArith_blind fun e => ?_
  split
  · exact .pure _
  · exact .pure _
  · exact .fail _

theorem cast_blind (a : Option Node) (target : String) : Blind (cast a target) := by
  have htype : Blind (cast.numType target) := by
    unfold cast.numType
    split
    · exact .ok _
    · exact .fail _
  refine .bind (operand_blind a) fun n => ?_
  split
  · exact .fail _
  · exact .bind htype fun _ => .pure _
  · exact .bind htype fun _ => .pure _

theorem concat_blind (terms : List Node) : Blind (concat terms) := by
  unfold concat
  split
  · exact .fail _
  · refine .bind (.mapM Node.expectString_blind terms) fun es => ?_
    split
    · exact .pure _
    · exact .pure _

theorem arithConstraint_blind (lhs rhs : Option ArithExpr) (precision : Float) :
    Blind (arithConstraint op lhs rhs precision) :=
  .bind (operands_blind lhs rhs) fun (_, _) => .bind (operator_blind op _ _) fun _ => .pure _

theorem stringConstraint_blind (lhs rhs : Option StrExpr) :
    Blind (stringConstraint op lhs rhs) :=
  .bind (operands_blind lhs rhs) fun (_, _) => .bind (operator_blind op _ _) fun _ => .pure _

theorem logical_blind (lhs rhs : Option Node) : Blind (logical op lhs rhs) := by
  refine .bind (operands_blind lhs rhs) fun (l, r) => ?_
  refine .bind l.expectConstraint_blind fun x => .bind r.expectConstraint_blind fun y => ?_
  exact .bind (operator_blind op _ _) fun _ => .pure _

theorem unaryLogical_blind (a : Option Node) : Blind (unaryLogical op a) := by
  refine .bind (operand_blind a) fun n => .bind n.expectConstraint_blind fun c => ?_
  split
  · exact .pure _
  · exact .fail _

theorem neglectPrecision_blind (explicit : Option Float) (relation : String) :
    Blind (neglectPrecision explicit relation) := by
  unfold neglectPrecision
  split
  · exact .warn _
  · exact .ok ()

theorem relation_blind (default : Float) (lhs rhs : Option Node) (token : String) :
    Blind (relation default op lhs rhs token) := by
  refine .bind (operands_blind lhs rhs) fun (l, r) => ?_
  dsimp only
  split
  · split
    · exact .bind (neglectPrecision_blind _ _) fun _ => arithConstraint_blind op _ _ _
    · exact arithConstraint_blind op _ _ _
  · exact .bind (neglectPrecision_blind _ _) fun _ => stringConstraint_blind op _ _
  · exact .bind (neglectPrecision_blind _ _) fun _ => logical_blind op _ _
  · exact .fail _

/-! ## Parameters -/

variable (type : ParamType) (keyword name : String)

theorem domainValue_blind (n : Node) : Blind (domainValue type name n) := by
  unfold domainValue
  split
  · exact .fail _
  · dsimp only
    split
    · exact .bind (.warn _) fun _ => .pure _
    · exact .pure _

theorem domainValues_blind (ns : List Node) : Blind (domainValues type name ns) := by
  induction ns with
  | nil => exact .ok []
  | cons n ns ih =>
    exact .bind (domainValue_blind type name n) fun _ => .bind ih fun _ => .pure _

theorem staticParam_blind (values : List Node) :
    Blind (staticParam keyword name values) := by
  refine .bind (.ofExcept _) fun type => ?_
  split
  · split
    · exact .bind (.warn _) fun _ => .pure _
    · exact .pure _
  · exact .bind (domainValues_blind _ name values) fun _ => .pure _

theorem autoRule_blind (position : Nat) (condition value : Node) :
    Blind (autoRule type name position condition value) := by
  refine .bind condition.expectConstraint_blind fun c => ?_
  split
  · exact .pure _
  · exact .fail _

theorem autoRules_blind (position : Nat) (rules : List (Node × Node)) :
    Blind (autoRules type name position rules) := by
  induction rules generalizing position with
  | nil => exact .ok []
  | cons rule rules ih =>
    exact .bind (autoRule_blind type name position rule.1 rule.2) fun _ =>
      .bind (ih (position + 1)) fun _ => .pure _

theorem autoParam_blind (rules : List (Node × Node)) :
    Blind (autoParam keyword name rules) := by
  refine .bind (.ofExcept _) fun type => ?_
  have hbuilt := autoRules_blind type name 1 rules
  split
  · exact .bind (.warn _) fun _ => .bind hbuilt fun _ => .pure _
  · exact .bind hbuilt fun _ => .pure _

end Build

/-! ## What is read from a draft -/

namespace Draft

variable (d : Draft) (name : String)

theorem reference_blind : Blind (d.reference name) := by
  unfold reference
  split
  · exact .fail _
  · split
    · exact .fail _
    · exact .ok _

theorem choice?_blind (value : Node) : Blind (d.choice? name value) := by
  unfold choice?
  dsimp only
  split
  · exact .fail _
  · split
    · exact .bind (.warn _) fun _ => .pure _
    · split
      · exact .fail _
      · split
        · exact .ok _
        · exact .fail _

theorem marker?_blind : Blind (d.marker? name) := by
  unfold marker?
  split
  · exact .ok _
  · exact .bind (.warn _) fun _ => .pure _

theorem named_blind : Blind (d.named name) := by
  unfold named
  split
  · exact .ok _
  · split
    · exact .fail _
    · split
      · exact .fail _
      · exact .ok _

theorem conditions_terse (position : Nat) (reasons : List Node) :
    Terse (conditions name position reasons) := by
  induction reasons generalizing position with
  | nil => exact .ok []
  | cons reason reasons ih =>
    cases reason with
    | constraint c => exact .bind (ih (position + 1)) fun _ => .pure _
    | arith e => exact .fail _
    | string e => exact .fail _

/-- The reasons before the one that a collection stops at are not reported. -/
theorem collect_terse {ι : Type} {f : ∀ {L : Type} [Logger L], ι → Attempt L BuildError Constraint}
    (hf : ∀ i, Terse (f i)) (l : List ι) : Terse (collect (l.map f)) := by
  induction l with
  | nil => exact .ok []
  | cons i l ih =>
    refine .bind (.mapError (hf i) fun _ => rfl) fun c => ?_
    exact .bind (.mapError ih fun _ => rfl) fun _ => .pure _

theorem invalidation_terse (pid : ParamId) (p : Param) : Terse (d.invalidation pid p) :=
  .map _ (conditions_terse p.name 1 (d.reasonsFor pid))

theorem invalidations_terse : Terse d.invalidations :=
  collect_terse (fun (p, pid) => d.invalidation_terse pid p) d.params.zipIdx

theorem finish_blind : Blind d.finish := .bind d.invalidations_terse.blind fun _ => .pure _

end Draft

end TWay
