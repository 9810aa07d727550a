import TWay.Proofs.Build.Step

/-!
# What is reported

A call that fails leaves the draft as it is and reports its failure once; one that succeeds reports
no error (`failures_reported_once`). So the errors in a log are those of the calls that failed, and
those of the caller's own, in the order of the calls. Two builders with the same draft take a call
alike (`Builder.call_alike`), so that what a log hears of a call depends on the draft only
(`Call.messages`), and this holds of every log.
-/

namespace TWay

/-! ## One call -/

/-- What a log is told of a call: all of it, in a log that keeps the messages. -/
def Call.messages (call : Call) (d : Draft) : List Message :=
  (Builder.call call ⟨some ([] : List Message), d⟩).2.log.getD []

/-- The errors that a call has to report, going by what it comes to. -/
def Call.reported : Call → Outcome → List String
  | error text, _ => [text]
  | _, outcome => reportOf outcome

namespace Builder

variable {L : Type} [Logger L] {b : Builder L}

/-- Two builders with the same draft take a call alike, whatever their logs are: it comes to the
same, the drafts after it are the same, and the two logs hear the same messages. -/
theorem call_alike {L' : Type} [Logger L'] (call : Call) (d : Draft) (log : Option L)
    (log' : Option L') : ∃ outcome messages d',
      Builder.call call ⟨log, d⟩ = (outcome, ⟨log.map (Logger.hear messages), d'⟩) ∧
      Builder.call call ⟨log', d⟩ = (outcome, ⟨log'.map (Logger.hear messages), d'⟩) ∧
      Message.errors messages = call.reported outcome := by
  cases call with
  | step command => exact command.attempt_orderly.blind L L' d log log'
  | options options =>
    exact ⟨.ok .done, [], { d with options }, told_nothing _ log _, told_nothing _ log' _, rfl⟩
  | error text => exact ⟨.ok .done, [.error text], d, rfl, rfl, rfl⟩
  | warning text => exact ⟨.ok .done, [.warning text], d, rfl, rfl, rfl⟩

/-- A call as seen by any log: what it is told is what a log that keeps the messages is told. -/
theorem call_eq (call : Call) (b : Builder L) : ∃ outcome d',
    b.call call = (outcome, ⟨b.log.map (Logger.hear (call.messages b.draft)), d'⟩) ∧
      Message.errors (call.messages b.draft) = call.reported outcome := by
  obtain ⟨outcome, messages, d', hcall, hkept, herrors⟩ :=
    call_alike call b.draft b.log (some ([] : List Message))
  have hmessages : call.messages b.draft = messages := by
    rw [Call.messages, hkept]
    exact (Logger.hear_messages messages []).trans (List.nil_append messages)
  rw [hmessages]
  exact ⟨outcome, d', hcall, herrors⟩

theorem log_call (call : Call) (b : Builder L) :
    (b.call call).2.log = b.log.map (Logger.hear (call.messages b.draft)) := by
  obtain ⟨outcome, d', hcall, -⟩ := call_eq call b
  rw [hcall]

/-- The errors among the messages of a call are what its outcome says, no more and no less. -/
theorem errors_messages (call : Call) (b : Builder L) :
    Message.errors (call.messages b.draft) = call.reported (b.call call).1 := by
  obtain ⟨outcome, d', hcall, herrors⟩ := call_eq call b
  rw [hcall]
  exact herrors

/-- A call that fails leaves everything that has been built as it is. -/
theorem draft_of_error {call : Call} {e : Failure} (h : (b.call call).1 = .error e) :
    (b.call call).2.draft = b.draft := by
  rcases call_cases call b with ⟨command, a, d, -, -, hout, -⟩ | ⟨command, e', -, -, -, hdraft⟩ |
    ⟨hout, -⟩
  · rw [hout] at h
    cases h
  · exact hdraft
  · rw [hout] at h
    cases h

/-! ## A run -/

/-- The errors that the calls of a run have to report, going by what they come to. -/
def reportedBy (calls : List Call) (outcomes : List Outcome) : List String :=
  (calls.zip outcomes).flatMap fun x => x.1.reported x.2

theorem length_run (calls : List Call) (b : Builder L) :
    (b.run calls).1.length = calls.length := by
  induction calls generalizing b with
  | nil => rfl
  | cons call calls ih => simp [run, ih]

/-- What a log hears of a run is what it hears of its calls one after the other. -/
theorem log_run (calls : List Call) (b : Builder L) :
    ∃ messages, (b.run calls).2.log = b.log.map (Logger.hear messages) ∧
      Message.errors messages = reportedBy calls (b.run calls).1 := by
  induction calls generalizing b with
  | nil => exact ⟨[], by simp [run], rfl⟩
  | cons call calls ih =>
    obtain ⟨messages, hlog, herrors⟩ := ih (b.call call).2
    refine ⟨call.messages b.draft ++ messages, ?_, ?_⟩
    · show ((b.call call).2.run calls).2.log = _
      rw [hlog, log_call, Logger.map_hear_append]
    · rw [Message.errors_append, herrors, errors_messages]
      rfl

end Builder

/-- Failures are atomic and reported once. A call that fails changes nothing that has been built,
and whatever log there is hears exactly one error of it, the message of the failure; of one that
succeeds it hears none. So a log of messages has, after any calls, the messages of those that failed
and the errors of the caller's own, in their order. -/
theorem failures_reported_once {L : Type} [Logger L] (b : Builder L) :
    (∀ call : Call,
      (∀ e, (b.call call).1 = .error e → (b.call call).2.draft = b.draft) ∧
      (b.call call).2.log = b.log.map (Logger.hear (call.messages b.draft)) ∧
      Message.errors (call.messages b.draft) = call.reported (b.call call).1) ∧
    ∀ (log : MessageLog) (calls : List Call),
      ∃ log', (Builder.run calls ⟨some log, b.draft⟩).2.log = some log' ∧
        (Builder.run calls ⟨some log, b.draft⟩).1.length = calls.length ∧
        log'.errors = log.errors ++
          Builder.reportedBy calls (Builder.run calls ⟨some log, b.draft⟩).1 := by
  refine ⟨fun call => ⟨fun e he => ?_, ?_, ?_⟩, fun log calls => ?_⟩
  · exact Builder.draft_of_error he
  · exact Builder.log_call call b
  · exact Builder.errors_messages call b
  · obtain ⟨messages, hlog, herrors⟩ := Builder.log_run calls ⟨some log, b.draft⟩
    refine ⟨Logger.hear messages log, hlog, Builder.length_run calls _, ?_⟩
    rw [MessageLog.errors_hear, herrors]

/-- A name that is not there, one that is there already, and an error of the caller's own. -/
theorem failures_reported_once_declaration :
    let b : Builder MessageLog := .new
    let calls : List Call :=
      [.step (.reference "a"), .error "unexpected token",
        .step (.declare "int" "a" [.string (.const "1")]), .step (.declare "bool" "a" [])]
    let run := Builder.run calls ⟨some {}, b.draft⟩
    (b.call (.step (.reference "a"))).1 = .error (.refused (.unknownParam "a")) ∧
    (b.call (.step (.reference "a"))).2.draft = b.draft ∧
    ∃ log : MessageLog, run.2.log = some log ∧
      log.errors =
        ["parameter a not found", "unexpected token", "parameter a is already declared"] := by
  intro b calls run
  obtain ⟨hcalls, hruns⟩ := failures_reported_once b
  have hfails : (b.call (.step (.reference "a"))).1 = .error (.refused (.unknownParam "a")) := rfl
  obtain ⟨log, hlog, -, herrors⟩ := hruns {} calls
  exact ⟨hfails, (hcalls _).1 _ hfails, log, hlog, herrors⟩

end TWay
