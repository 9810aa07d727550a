/-!
# Logs

Where the messages of a builder go. `Logger` (`ErrorLogger`) is what a builder asks of a log, and
`MessageLog` (`DiagnosticLog`) is one that keeps every message.
-/

namespace TWay

/-- A log takes messages and can tell how many it has taken (`report_error`, `report_warning`,
`num_errs`, `num_warnings`). -/
class Logger (L : Type) where
  error : String → L → L
  warning : String → L → L
  errorCount : L → Nat
  warningCount : L → Nat

/-- The messages in the order of their arrival. -/
structure MessageLog where
  errors : List String := []
  warnings : List String := []
deriving DecidableEq

instance : Logger MessageLog where
  error text log := { log with errors := log.errors ++ [text] }
  warning text log := { log with warnings := log.warnings ++ [text] }
  errorCount log := log.errors.length
  warningCount log := log.warnings.length

/-- A log in a box, which is told everything and is asked for the counts (`Box`). -/
structure Boxed (L : Type) where
  log : L

instance {L : Type} [Logger L] : Logger (Boxed L) where
  error text box := ⟨Logger.error text box.log⟩
  warning text box := ⟨Logger.warning text box.log⟩
  errorCount box := Logger.errorCount box.log
  warningCount box := Logger.warningCount box.log

end TWay
