import Reflow.Character.Hidden
import Reflow.Text.Basic

/-!
# Quoted texts

A text in double quotes as it stands in messages: characters that do not show are spelled out.
-/

namespace Reflow

/-- The digits of a number in a base from two to sixteen. -/
def digitsOf (base n : Nat) : Text :=
  Nat.toDigits base n

namespace Quoted

/-- A character in a quoted text; a single quote is escaped if `single`. -/
def escape (single : Bool) (c : Char) : Text :=
  match c with
  | '\x00' => ['\\', '0']
  | '\t' => ['\\', 't']
  | '\n' => ['\\', 'n']
  | '\r' => ['\\', 'r']
  | '"' => ['\\', '"']
  | '\\' => ['\\', '\\']
  | '\'' => if single then ['\\', '\''] else ['\'']
  | c => if isHidden c then "\\u\x7b".toList ++ digitsOf 16 c.toNat ++ ['\x7d'] else [c]

/-- A text in double quotes. -/
def encode (single : Bool) (t : Text) : Text :=
  '"' :: t.flatMap (escape single) ++ ['"']

end Quoted

end Reflow
