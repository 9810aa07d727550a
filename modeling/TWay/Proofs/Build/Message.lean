import TWay.Build.Log

/-!
# Messages

What logs are told, as data, so that one can say that two logs of different kinds have heard the
same (`Logger.hear`). A failure is worth one error, its message, and a result none (`reportOf`).
-/

namespace TWay

/-- What a log can be told. -/
inductive Message where
  | error (text : String)
  | warning (text : String)
deriving DecidableEq

namespace Message

/-- The text of an error; a warning is none. -/
def error? : Message → Option String
  | error text => some text
  | warning _ => none

/-- The texts of the errors among the messages. -/
def errors (messages : List Message) : List String := messages.filterMap error?

theorem errors_append (xs ys : List Message) : errors (xs ++ ys) = errors xs ++ errors ys :=
  List.filterMap_append

end Message

/-- What there is to report of a result. -/
def reportOf {ε α : Type} [ToString ε] : Except ε α → List String
  | .ok _ => []
  | .error e => [toString e]

theorem errors_map_error (texts : List String) :
    Message.errors (texts.map .error) = texts := by
  induction texts with
  | nil => rfl
  | cons text texts ih => exact congrArg (text :: ·) ih

namespace Logger

variable {L : Type} [Logger L]

/-- The log after one message more. -/
def tell (log : L) : Message → L
  | .error text => Logger.error text log
  | .warning text => Logger.warning text log

/-- The log after the messages, in their order. -/
def hear (messages : List Message) (log : L) : L := messages.foldl tell log

@[simp] theorem map_hear_nil (log : Option L) : log.map (hear []) = log := by
  cases log <;> rfl

theorem map_hear_append (xs ys : List Message) (log : Option L) :
    log.map (hear (xs ++ ys)) = (log.map (hear xs)).map (hear ys) := by
  cases log <;> simp [hear, List.foldl_append]

theorem hear_boxed (messages : List Message) (log : L) :
    hear messages (Boxed.mk log) = ⟨hear messages log⟩ := by
  induction messages generalizing log with
  | nil => rfl
  | cons message messages ih => cases message <;> exact ih _

end Logger

theorem MessageLog.errors_hear (messages : List Message) (log : MessageLog) :
    (Logger.hear messages log).errors = log.errors ++ Message.errors messages := by
  induction messages generalizing log with
  | nil => simp [Logger.hear, Message.errors]
  | cons message messages ih =>
    show (Logger.hear messages (Logger.tell log message)).errors = _
    rw [ih]
    cases message with
    | error text => simp [Logger.tell, Logger.error, Message.errors, Message.error?]
    | warning text => rfl

/-! ## Two more logs -/

/-- No log is of this kind, so that there is nobody to be told anything. -/
instance : Logger Empty where
  error _ log := log
  warning _ log := log
  errorCount log := log.elim
  warningCount log := log.elim

/-- The messages themselves, in the order of their arrival. -/
instance : Logger (List Message) where
  error text log := log ++ [.error text]
  warning text log := log ++ [.warning text]
  errorCount log := (Message.errors log).length
  warningCount log := log.length - (Message.errors log).length

theorem Logger.hear_messages (messages log : List Message) :
    Logger.hear messages log = log ++ messages := by
  induction messages generalizing log with
  | nil => exact (List.append_nil log).symm
  | cons message messages ih =>
    cases message with
    | error text => exact (ih _).trans (List.append_assoc ..)
    | warning text => exact (ih _).trans (List.append_assoc ..)

end TWay
