import TWay.Build.Command
import TWay.Build.Model

/-!
# The builder

What can be asked of a builder, one call after the other, until its model is finished.
-/

namespace TWay

/-- What a builder can be asked for until its model is finished. -/
inductive Call where
  | step (command : Command)
  /-- Other options than before. -/
  | options (options : BuildOptions)
  /-- An error of the caller's own, for the log. -/
  | error (text : String)
  /-- A warning of the caller's own, for the log. -/
  | warning (text : String)

/-- What a call comes to. -/
abbrev Outcome := Except Failure Answer

namespace Builder

variable {L : Type}

/-- An empty draft whose messages go to a log (`with_logger`). -/
def withLog (log : L) : Builder L := ⟨some log, {}⟩

/-- A builder that drops all messages (`silent`). -/
def silent : Builder L := ⟨none, {}⟩

/-- An empty draft with a log that keeps every message (`new`). -/
def new : Builder MessageLog := withLog {}

/-- The options are taken as they are (`with_options`). -/
def withOptions (options : BuildOptions) (b : Builder L) : Builder L :=
  { b with draft := { b.draft with options } }

variable [Logger L]

/-- Hands an error to the log (`report_error`). -/
def reportError (text : String) (b : Builder L) : Builder L :=
  { b with log := b.log.map (Logger.error text) }

/-- Hands a warning to the log (`report_warning`). -/
def reportWarning (text : String) (b : Builder L) : Builder L :=
  { b with log := b.log.map (Logger.warning text) }

/-- How many errors the log has; without a log, none (`num_errs`). -/
def errorCount (b : Builder L) : Nat := b.log.elim 0 Logger.errorCount

/-- How many warnings the log has; without a log, none (`num_warnings`). -/
def warningCount (b : Builder L) : Nat := b.log.elim 0 Logger.warningCount

/-- Takes the step that a command stands for. -/
def execute (command : Command) (b : Builder L) : Except Failure Answer × Builder L :=
  command.attempt b

/-- Does what a call asks for. -/
def call : Call → Builder L → Outcome × Builder L
  | .step command, b => b.execute command
  | .options options, b => (.ok .done, b.withOptions options)
  | .error text, b => (.ok .done, b.reportError text)
  | .warning text, b => (.ok .done, b.reportWarning text)

/-- What the calls of a run come to, and the builder after it. -/
def run : List Call → Builder L → List Outcome × Builder L
  | [], b => ([], b)
  | call :: calls, b =>
    let (outcome, b) := b.call call
    let (outcomes, b) := b.run calls
    (outcome :: outcomes, b)

/-- The finished model. The log is given up with the builder, whatever it has heard (`finish`). -/
def finish (b : Builder L) : Except Halted Model := (b.draft.finish b.log).1

end Builder

end TWay
