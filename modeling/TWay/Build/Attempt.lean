import TWay.Build.Log

/-!
# Attempts

An attempt is made with the log at hand, if there is one. It comes to a result or to the reason why
there is none, and leaves the log, which it may have told something. A failure is reported where it
comes up. Attempts in a row hand the log on up to the first failure, which is passed on as it is.
-/

namespace TWay

/-- What comes of the log at hand: a result or a failure, and the log after it. -/
def Attempt (L ε α : Type) : Type := Option L → Except ε α × Option L

namespace Attempt

variable {L ε ε' α β : Type}

/-- A result, and nothing to report. -/
def ok (a : α) : Attempt L ε α := fun log => (.ok a, log)

/-- The second attempt follows a result of the first, with the log that the first one leaves. -/
def bind (x : Attempt L ε α) (f : α → Attempt L ε β) : Attempt L ε β := fun log =>
  match x log with
  | (.ok a, log) => f a log
  | (.error e, log) => (.error e, log)

instance : Monad (Attempt L ε) where
  pure := ok
  bind := bind

theorem bind_ok (x : Attempt L ε α) : x.bind ok = x := by
  funext log
  unfold bind
  split <;> rename_i hx <;> exact hx.symm

theorem bind_assoc {γ : Type} (x : Attempt L ε α) (f : α → Attempt L ε β)
    (g : β → Attempt L ε γ) : (x.bind f).bind g = x.bind fun a => (f a).bind g := by
  funext log
  unfold bind
  cases hx : x log with
  | mk result log => cases result <;> rfl

instance : LawfulMonad (Attempt L ε) :=
  LawfulMonad.mk' (Attempt L ε) bind_ok (fun _ _ => rfl) bind_assoc

/-- The same attempt with its failure told in another way. It has been reported. -/
def mapError (f : ε → ε') (x : Attempt L ε α) : Attempt L ε' α := fun log =>
  let made := x log
  (made.1.mapError f, made.2)

variable [Logger L]

/-- A failure that is reported as an error and handed back (`fail`). -/
def fail [ToString ε] (e : ε) : Attempt L ε α := fun log =>
  (.error e, log.map (Logger.error (toString e)))

/-- A result; a failure is reported. -/
def ofExcept [ToString ε] : Except ε α → Attempt L ε α
  | .ok a => ok a
  | .error e => fail e

/-- A warning by itself (`report_warning`). -/
def warn (text : String) : Attempt L ε Unit := fun log => (.ok (), log.map (Logger.warning text))

instance [ToString ε] : MonadLift (Except ε) (Attempt L ε) := ⟨ofExcept⟩

end Attempt

end TWay
