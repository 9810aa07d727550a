/-!
# Values that may be invalid

An evaluation gives a value and says whether it is valid. An invalid result has a value, too: a
negation still turns it over, and the default stands where there is nothing to compute with.
-/

namespace TWay

/-- A value, and whether it counts. -/
structure Evaluated (α : Type) where
  value : α
  isValid : Bool
deriving DecidableEq

namespace Evaluated

variable {α β γ : Type}

/-- A value that counts (`valid`). -/
def valid (value : α) : Evaluated α := ⟨value, true⟩

/-- The default, which does not count (`invalid`). -/
def invalid [Inhabited α] : Evaluated α := ⟨default, false⟩

/-- Valid where there is a value. -/
def ofOption [Inhabited α] : Option α → Evaluated α
  | some value => valid value
  | none => invalid

/-- Another value in place of the one there, valid or not (`map`). -/
def map (f : α → β) (a : Evaluated α) : Evaluated β := ⟨f a.value, a.isValid⟩

/-- What is computed from two valid values; with an invalid one there is nothing to compute. -/
def both [Inhabited γ] (f : α → β → Option γ) (a : Evaluated α) (b : Evaluated β) : Evaluated γ :=
  if a.isValid && b.isValid then ofOption (f a.value b.value) else invalid

/-- Valid, and of this truth value (`is_valid_and`). -/
def decides (a : Evaluated Bool) (value : Bool) : Bool := a.isValid && a.value == value

/-- Valid and true (`holds`). -/
def holds (a : Evaluated Bool) : Bool := a.decides true

end Evaluated

end TWay
