import Reflow.Buffer.Basic
import Reflow.Character.Columns
import Reflow.Screen.Style

/-!
# Lines on the screen

A line of the text is drawn in spans of one shade each: what is selected, what is past the wrap
column, and the rest.  A tab is drawn as blanks, and a line break that is selected as one blank.
-/

namespace Reflow

inductive Shade
  /-- Neither selected nor past the wrap column. -/
  | normal
  | overflow
  | selected
deriving DecidableEq, Repr

/-- The style of a shade, in the paragraph around the caret or outside of it. -/
def Shade.style (inParagraph : Bool) : Shade → Style
  | normal =>
    { ink := some .white, ground := some (if inParagraph then .mixed 60 60 70 else .unset) }
  | overflow =>
    { ink := some .lightRed, ground := some (if inParagraph then .mixed 60 60 70 else .unset) }
  | selected => { ink := some .white, ground := some (.mixed 80 80 120) }

/-- Whether a position is in a selection whose earlier end comes first. -/
def Selection.contains (s : Selection) (p : Position) : Bool :=
  !p.isBefore s.start && p.isBefore s.stop

/-- Whether the break after a line is in a selection whose earlier end comes first. -/
def Selection.containsBreak (s : Selection) (line : Nat) : Bool :=
  s.start.line ≤ line && line < s.stop.line

/-- What a line on the screen depends on beside its text. -/
structure LineView where
  line : Nat
  /-- What is selected, with the earlier end first. -/
  selection : Option Selection
  wrapColumn : Nat
  tabWidth : Nat
deriving DecidableEq, Repr

/-- The number of columns that a character takes where a tab takes `tabWidth` of them. -/
def columnsOf (tabWidth : Nat) (c : Char) : Nat :=
  if c = '\t' then tabWidth else columns c

/-- The column on the screen of the character with the given index in a line. -/
def displayColumn (tabWidth : Nat) (line : Text) (n : Nat) : Nat :=
  total (columnsOf tabWidth) (line.take n)

namespace LineView

/-- The shade of the character with the given index, before which the line has taken `column`
columns. -/
def shade (v : LineView) (n column : Nat) : Shade :=
  if v.selection.any fun s => s.contains ⟨v.line, n⟩ then .selected
  else if v.wrapColumn ≤ column then .overflow
  else .normal

def drawn (v : LineView) (c : Char) : Text :=
  if c = '\t' then List.replicate v.tabWidth ' ' else [c]

/-- A line as far as it is drawn. -/
structure Drawing where
  /-- The pieces that are finished. -/
  done : List (Text × Shade) := []
  /-- What is drawn after them, all of it in one shade. -/
  current : Text := []
  shade : Shade := .normal
  /-- The columns that the characters have taken. -/
  column : Nat := 0
deriving DecidableEq, Repr

/-- The pieces with the last one finished, unless nothing is drawn in it. -/
def Drawing.finished (d : Drawing) : List (Text × Shade) :=
  if d.current.isEmpty then d.done else d.done ++ [(d.current, d.shade)]

/-- Draws the character with the given index.  A piece ends where the shade changes. -/
def draw (v : LineView) (d : Drawing) (n : Nat) (c : Char) : Drawing :=
  let shade := v.shade n d.column
  let column := d.column + columnsOf v.tabWidth c
  if shade = d.shade then { d with current := d.current ++ v.drawn c, column }
  else { done := d.finished, current := v.drawn c, shade, column }

def drawing (v : LineView) (line : Text) : Drawing :=
  line.zipIdx.foldl (fun d (c, n) => v.draw d n c) {}

/-- What is drawn for a line, in pieces of one shade.  A line break that is selected is one blank, and
a line for which nothing is drawn is one empty piece. -/
def pieces (v : LineView) (line : Text) : List (Text × Shade) :=
  let d := v.drawing line
  if v.selection.any fun s => s.containsBreak v.line then d.finished ++ [([' '], .selected)]
  else if !d.current.isEmpty || d.done.isEmpty then d.done ++ [(d.current, d.shade)]
  else d.done

def spans (v : LineView) (inParagraph : Bool) (line : Text) : List Span :=
  (v.pieces line).map fun piece => ⟨piece.1, piece.2.style inParagraph⟩

end LineView

end Reflow
