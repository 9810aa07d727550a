import TWay.Text.Unprintable
import TWay.Text.Extending
import TWay.Text.Ignorable

/-!
# Quoted text

A text in double quotes in which every character can be told from its neighbours: the quote, the
backslash, the null and the three line characters have a short escape, and a character that would
not show by itself is written as its code point.
-/

namespace TWay.Text.Quoted

/-- A code point in lower-case hexadecimal, between braces. -/
def codePoint (c : Char) : List Char :=
  ['\\', 'u', '\x7b'] ++ Nat.toDigits 16 c.toNat ++ ['\x7d']

/-- The character would not show by itself. -/
def isHidden (c : Char) : Bool := isExtending c || isIgnorable c || isUnprintable c

/-- How one character stands between the quotes. -/
def escape (c : Char) : List Char :=
  match c with
  | '\x00' => ['\\', '0']
  | '\t' => ['\\', 't']
  | '\r' => ['\\', 'r']
  | '\n' => ['\\', 'n']
  | '\\' => ['\\', '\\']
  | '"' => ['\\', '"']
  | c => if isHidden c then codePoint c else [c]

/-- The characters of a text between double quotes. -/
def encode (cs : List Char) : List Char := '"' :: cs.flatMap escape ++ ['"']

end TWay.Text.Quoted

namespace TWay.Text

/-- A text in double quotes (the constants of `render`). -/
def quote (s : String) : String := String.ofList (Quoted.encode s.toList)

example : quote "it's \"é\"" = "\"it's \\\"é\\\"\"" := by decide +kernel
example : quote "\u1100\u1160\uff9e" = "\"\u1100\\u\x7b1160\x7d\uff9e\"" := by decide +kernel
example : quote "\t\u0301" = "\"\\t\\u\x7b301\x7d\"" := by decide +kernel

end TWay.Text
