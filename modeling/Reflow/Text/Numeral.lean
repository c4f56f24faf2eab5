import Reflow.Text.Basic

/-!
# Numerals

Reading and writing whole numbers below `2 ^ 64`.
-/

namespace Reflow

/-- The numbers that fit in a 64-bit word lie below this bound. -/
def wordBound : Nat := Nat.pow 2 64

namespace Numeral

/-- The value of an ASCII digit. -/
def digit? (c : Char) : Option Nat :=
  if '0' ≤ c ∧ c ≤ '9' then some (c.toNat - '0'.toNat) else none

/-- The value of a row of ASCII digits, read on from `n`. -/
def digits? : Nat → Text → Option Nat
  | n, [] => some n
  | n, c :: t => do digits? (10 * n + (← digit? c)) t

/-- The value of an optional plus sign and one or more ASCII digits, below `2 ^ 64`. -/
def read? (t : Text) : Option Nat := do
  let body := (Text.after? ['+'] t).getD t
  let n ← if body.isEmpty then none else digits? 0 body
  if n < wordBound then some n else none

end Numeral

end Reflow
