/-!
# Combinations

The ascending lists of a given length of numbers below a bound, in lexicographic order. They are
built from the front: a list that is not yet long enough is continued by every number that is
greater than those in it and leaves room for the ones still missing.
-/

namespace TWay

/-- The ways to continue `current` by `missing` more numbers below `n`, none of them below `start`
(`extend`). -/
def continuations (n : Nat) : (missing start : Nat) → (current : List Nat) → List (List Nat)
  | 0, _, current => [current]
  | missing + 1, start, current =>
    let last := n - (missing + 1)
    (List.range' start (last + 1 - start)).flatMap fun i =>
      continuations n missing (i + 1) (current ++ [i])

/-- Every ascending list of `t` numbers below `n` (`combinations`). -/
def combinations (n t : Nat) : List (List Nat) :=
  if n < t then [] else continuations n t 0 []

end TWay
