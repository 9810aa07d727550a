import TWay.Decimal.Numeral

/-!
# JSON trees

A JSON text as a tree that keeps what a reader of it may care about: numbers as they are written,
all entries of an object in their order, and strings that are no text, because an escape in them is
one half of a surrogate pair.
-/

namespace TWay

/-- What a JSON text says. -/
inductive Json where
  | null
  | bool (value : Bool)
  | number (n : Decimal.Numeral)
  /-- Nothing, where an escape is half of a surrogate pair. -/
  | string (text : Option String)
  | array (items : List Json)
  | object (entries : List (Option String × Json))

end TWay
