import Reflow.Character.Digit
import Reflow.Comment.Markers

/-!
# Indents

A line is an indent, which holds its blanks, its leader and perhaps a tag, and the text after it.
Apart from that a line, or a whole paragraph, may begin with a list symbol.
-/

namespace Reflow

/-- A line in its parts. -/
structure Line where
  /-- What comes before the words, without line breaks. -/
  indent : Text
  /-- The list symbol that the line begins with, with the white space around it. -/
  symbol : Text
  /-- The text after the indent, without blanks and controls at its ends. -/
  rest : Text
deriving DecidableEq, Repr

/-- Whether a character is a space or a control character before it. -/
def isControl (c : Char) : Bool :=
  c ≤ ' '

/-- Reads a star, a dash, or digits and a dot. -/
def bullet? (t : Text) : Option Text :=
  match t with
  | '*' :: _ => some ['*']
  | '-' :: _ => some ['-']
  | t =>
    let digits := t.takeWhile isDigit
    match digits, t.drop digits.length with
    | [], _ => none
    | _, '.' :: _ => some (digits ++ ['.'])
    | _, _ => none

/-- The list symbol at the start of a text: a bullet after any and before some white space, all of
which belongs to it. -/
def listSymbol? (t : Text) : Option Text := do
  let blanks := t.takeWhile isBlank
  let bullet ← bullet? (t.drop blanks.length)
  let after := (t.drop (blanks.length + bullet.length)).takeWhile isBlank
  if after.isEmpty then none else some (blanks ++ bullet ++ after)

def Markers.splitLine (markers : Markers) (t : Text) : Line :=
  let symbol := (listSymbol? t).getD []
  match markers.indent.find? false none t with
  | some m => ⟨m.hit.filter fun c => !isBreak c, symbol, Text.strip isControl m.rest⟩
  | none => ⟨[], symbol, t⟩

/-- Whether a line holds nothing but an indent. -/
def Markers.isBare (markers : Markers) (t : Text) : Bool :=
  (markers.splitLine t).rest.all isBlank

end Reflow
