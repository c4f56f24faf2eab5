import Reflow.Buffer.Basic
import Reflow.Wrapper.Basic

/-!
# Wrapping in a buffer

Wraps what is selected, the line of the caret, or the paragraph around the caret.  A paragraph
reaches up and down to the next bare line, which holds nothing but an indent.
-/

namespace Reflow

/-- What a wrap has done to a buffer. -/
inductive WrapOutcome
  /-- The wrapped text is on the lines from the first to the last. -/
  | wrapped (first last : Nat)
  /-- There was nothing to wrap, or wrapping changed nothing. -/
  | unchanged
deriving DecidableEq, Repr

/-- The first and the last line of the paragraph that a line is in, if the line is not bare. -/
def Markers.paragraph? (markers : Markers) (lines : List Text) (n : Nat) : Option (Nat × Nat) :=
  let holdsWords := fun line => !markers.isBare line
  if lines[n]?.any holdsWords then
    some (n - ((lines.take n).reverse.takeWhile holdsWords).length,
      n + ((lines.drop (n + 1)).takeWhile holdsWords).length)
  else none

namespace Buffer

/-- Wraps the text of a selection, unless it is blank or comes out the same. -/
def wrapIn (b : Buffer) (w : Wrapper) (s : Selection) : Buffer × WrapOutcome :=
  let t := b.textIn s
  let wrapped := w.wrap t
  if t.all isBlank || wrapped = t then (b, .unchanged)
  else
    let (b, first, last) := b.replace s wrapped
    (b, .wrapped first last)

/-- The selection, unless there is none or it is empty. -/
def filled? (selection : Option Selection) : Option Selection :=
  selection.filter fun s => !s.isEmpty

def wrapSelection (b : Buffer) (w : Wrapper) (selection : Option Selection) : Buffer × WrapOutcome :=
  b.wrapIn w
    ((filled? selection).getD (.ofLines b.lines b.caret.line b.caret.line))

/-- Wraps the selection, or the paragraph around the caret if nothing is selected. -/
def wrapParagraph (b : Buffer) (w : Wrapper) (selection : Option Selection) : Buffer × WrapOutcome :=
  match filled? selection with
  | some s => b.wrapIn w s
  | none =>
    match w.markers.paragraph? b.lines b.caret.line with
    | some (first, last) => b.wrapIn w (.ofLines b.lines first last)
    | none => (b, .unchanged)

end Buffer

end Reflow
