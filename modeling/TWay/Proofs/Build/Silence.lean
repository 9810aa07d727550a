import TWay.Proofs.Build.Report

/-!
# Messages have no influence

Every operation works on the log together with the draft, and two builders with the same draft take
each call alike, whatever their logs are (`Builder.call_alike`). So a run goes the same way whoever
listens to it, be it a log, the same log in a box, or nobody (`log_has_no_influence`).
-/

namespace TWay

namespace Builder

variable {L L' : Type} [Logger L] [Logger L']

/-- Two builders with the same draft take a run alike, by induction on the calls: each call comes to
the same and leaves the same draft, so that the next one is taken by two builders with the same
draft again. -/
theorem run_alike (calls : List Call) (d : Draft) (log : Option L) (log' : Option L') :
    ∃ outcomes messages d',
      Builder.run calls ⟨log, d⟩ = (outcomes, ⟨log.map (Logger.hear messages), d'⟩) ∧
      Builder.run calls ⟨log', d⟩ = (outcomes, ⟨log'.map (Logger.hear messages), d'⟩) := by
  induction calls generalizing d log log' with
  | nil => exact ⟨[], [], d, told_nothing [] log d, told_nothing [] log' d⟩
  | cons call calls ih =>
    obtain ⟨outcome, messages, d₁, hcall, hcall', -⟩ := call_alike call d log log'
    obtain ⟨outcomes, more, d', hrun, hrun'⟩ :=
      ih d₁ (log.map (Logger.hear messages)) (log'.map (Logger.hear messages))
    refine ⟨outcome :: outcomes, messages ++ more, d', ?_, ?_⟩
    · rw [run, hcall, Logger.map_hear_append]
      exact congrArg (fun made => (outcome :: made.1, made.2)) hrun
    · rw [run, hcall', Logger.map_hear_append]
      exact congrArg (fun made => (outcome :: made.1, made.2)) hrun'

theorem run_agrees {b : Builder L} {b' : Builder L'} (h : b.draft = b'.draft) (calls : List Call) :
    (b.run calls).1 = (b'.run calls).1 ∧ (b.run calls).2.draft = (b'.run calls).2.draft := by
  obtain ⟨log, d⟩ := b
  obtain ⟨log', d'⟩ := b'
  cases h
  obtain ⟨outcomes, messages, d', hrun, hrun'⟩ := run_alike calls d log log'
  rw [hrun, hrun']
  exact ⟨rfl, rfl⟩

/-- A log in a box hears of a run what it would hear without. -/
theorem log_run_boxed (calls : List Call) (d : Draft) (log : Option L) :
    (Builder.run calls ⟨log.map Boxed.mk, d⟩).2.log =
      (Builder.run calls ⟨log, d⟩).2.log.map Boxed.mk := by
  obtain ⟨outcomes, messages, d', hboxed, hrun⟩ := run_alike calls d (log.map Boxed.mk) log
  rw [hboxed, hrun, Option.map_map, Option.map_map]
  exact congrArg (log.map ·) (funext fun log => Logger.hear_boxed messages log)

theorem log_run_silent (calls : List Call) (d : Draft) :
    (Builder.run calls (⟨none, d⟩ : Builder L)).2.log = none := by
  obtain ⟨outcomes, messages, d', hrun, -⟩ := run_alike calls d (none : Option L) (none : Option L)
  rw [hrun]
  rfl

end Builder

/-- Messages have no influence. Take the same calls on the same draft with any two logs, or with
none: each call comes to the same, constraints of a step that stops halfway included, and after
each of them the drafts are the same, and so is the model that would be finished. A log in a box
hears what it would hear without, and a builder without a log never has anything to count. -/
theorem log_has_no_influence {L L' : Type} [Logger L] [Logger L'] (log : Option L)
    (log' : Option L') (d : Draft) (calls : List Call) :
    let b : Builder L := ⟨log, d⟩
    let b' : Builder L' := ⟨log', d⟩
    let boxed : Builder (Boxed L) := ⟨log.map Boxed.mk, d⟩
    let silent : Builder L := ⟨none, d⟩
    (b.run calls).1 = (b'.run calls).1 ∧
    (boxed.run calls).1 = (b'.run calls).1 ∧
    ∀ n, let before := calls.take n
      (b.run before).2.draft = (b'.run before).2.draft ∧
      (boxed.run before).2.draft = (b'.run before).2.draft ∧
      (b.run before).2.finish = (b'.run before).2.finish ∧
      (boxed.run before).2.log = (b.run before).2.log.map Boxed.mk ∧
      (silent.run before).2.errorCount = 0 ∧ (silent.run before).2.warningCount = 0 := by
  intro b b' boxed silent
  have hsame : b.draft = b'.draft := rfl
  have hboxed : boxed.draft = b'.draft := rfl
  refine ⟨(Builder.run_agrees hsame calls).1, (Builder.run_agrees hboxed calls).1, fun n => ?_⟩
  intro before
  have hdraft := (Builder.run_agrees hsame before).2
  have hsilent : (silent.run before).2.log = none := Builder.log_run_silent before d
  refine ⟨hdraft, (Builder.run_agrees hboxed before).2, ?_, Builder.log_run_boxed before d log,
    ?_, ?_⟩
  · rw [Builder.finish_eq, Builder.finish_eq, hdraft]
  · rw [Builder.errorCount, hsilent]
    rfl
  · rw [Builder.warningCount, hsilent]
    rfl

end TWay
