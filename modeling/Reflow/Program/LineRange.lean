import Reflow.Text.Numeral

/-!
# Line ranges

A range of lines is written as two numbers with a colon between them.  The lines are counted from
one, and both ends belong to the range.
-/

namespace Reflow.LineRange

/-- The parts of a text before and after its first colon. -/
def cut? (t : Text) : Option (Text × Text) :=
  match t.dropWhile (· ≠ ':') with
  | [] => none
  | _ :: rest => some (t.takeWhile (· ≠ ':'), rest)

/-- Reads a range of lines: the first and the last one, counted from zero. -/
def read? (t : Text) : Option (Nat × Nat) := do
  let (first, last) ← cut? t
  let first ← Numeral.read? (Text.trim first)
  let last ← Numeral.read? (Text.trim last)
  if first = 0 || last < first then none else some (first - 1, last - 1)

end Reflow.LineRange
