import TWay.Json.Basic
import TWay.Json.Text

/-!
# Reading JSON

A JSON text is one value with blanks around it. There is no leniency: no trailing commas or text, no
leading zeros, and a point or an exponent needs digits.
-/

namespace TWay.Json

open Decimal (Numeral leadingDigits leadingSign)

/-- The four characters that may stand between the parts of a text. -/
def isBlank (c : Char) : Bool := c == ' ' || c == '\n' || c == '\t' || c == '\r'

/-- What follows the leading blanks. -/
def dropBlanks (cs : List Char) : List Char := cs.dropWhile isBlank

/-- The digits before the point; zero stands alone. -/
def wholeDigits? (cs : List Char) : Option (List Char) :=
  match leadingDigits cs with
  | [] => none
  | ['0'] => some ['0']
  | '0' :: _ => none
  | digits => some digits

/-- A point and digits, if there is a point. -/
def fraction? : List Char → Option (List Char)
  | '.' :: cs =>
    match leadingDigits cs with
    | [] => none
    | digits => some ('.' :: digits)
  | _ => some []

/-- The mark, an optional sign and digits, if there is a mark. -/
def exponent? : List Char → Option (List Char)
  | c :: cs =>
    if c == 'e' || c == 'E' then
      let sign := leadingSign cs
      match leadingDigits (cs.drop sign.length) with
      | [] => none
      | digits => some (c :: (sign ++ digits))
    else some []
  | [] => some []

/-- The number that a text starts with, and what follows it. -/
def readNumber? (cs : List Char) : Option (Numeral × List Char) := do
  let sign := if cs.head? == some '-' then ['-'] else []
  let unsigned := cs.drop sign.length
  let whole ← wholeDigits? unsigned
  let afterWhole := unsigned.drop whole.length
  let fraction ← fraction? afterWhole
  let afterFraction := afterWhole.drop fraction.length
  let exponent ← exponent? afterFraction
  return (⟨sign, whole, fraction, exponent⟩, afterFraction.drop exponent.length)

mutual

/-- A value and what follows it. Each level of nesting and each entry uses up one unit of fuel. -/
def readValue? : Nat → List Char → Option (Json × List Char)
  | 0, _ => none
  | fuel + 1, cs =>
    match dropBlanks cs with
    | 'n' :: 'u' :: 'l' :: 'l' :: cs => some (.null, cs)
    | 't' :: 'r' :: 'u' :: 'e' :: cs => some (.bool true, cs)
    | 'f' :: 'a' :: 'l' :: 's' :: 'e' :: cs => some (.bool false, cs)
    | '"' :: cs => (fun (text, rest) => (.string text, rest)) <$> readString? cs
    | '[' :: cs =>
      match dropBlanks cs with
      | ']' :: cs => some (.array [], cs)
      | cs => (fun (items, rest) => (.array items, rest)) <$> readItems? fuel cs
    | '{' :: cs =>
      match dropBlanks cs with
      | '}' :: cs => some (.object [], cs)
      | cs => (fun (entries, rest) => (.object entries, rest)) <$> readEntries? fuel cs
    | cs => (fun (n, rest) => (.number n, rest)) <$> readNumber? cs

/-- The items of an array up to its end. -/
def readItems? : Nat → List Char → Option (List Json × List Char)
  | 0, _ => none
  | fuel + 1, cs => do
    let (item, cs) ← readValue? fuel cs
    match dropBlanks cs with
    | ',' :: cs => do
      let (items, rest) ← readItems? fuel cs
      return (item :: items, rest)
    | ']' :: rest => some ([item], rest)
    | _ => none

/-- The entries of an object up to its end. -/
def readEntries? : Nat → List Char → Option (List (Option String × Json) × List Char)
  | 0, _ => none
  | fuel + 1, cs =>
    match dropBlanks cs with
    | '"' :: cs => do
      let (key, cs) ← readString? cs
      match dropBlanks cs with
      | ':' :: cs => do
        let (value, cs) ← readValue? fuel cs
        match dropBlanks cs with
        | ',' :: cs => do
          let (entries, rest) ← readEntries? fuel cs
          return ((key, value) :: entries, rest)
        | '}' :: rest => some ([(key, value)], rest)
        | _ => none
      | _ => none
    | _ => none

end

/-- Two units for each character are more than any nesting can use up. -/
def enough (cs : List Char) : Nat := 2 * cs.length + 2

/-- The tree of a JSON text. -/
def ofText? (s : String) : Option Json := do
  let cs := s.toList
  let (value, rest) ← readValue? (enough cs) cs
  if (dropBlanks rest).isEmpty then some value else none

end TWay.Json
