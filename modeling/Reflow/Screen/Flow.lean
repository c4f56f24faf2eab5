import Reflow.Screen.Grid

/-!
# Flowing text

Lines of text that are broken at blanks where they do not fit an area.  Blanks at the start of a line
and at a break are left out.
-/

namespace Reflow

namespace Flow

/-- A sign with its style. -/
abbrev StyledSign := Text × Style

def isBlankSign (s : StyledSign) : Bool :=
  s.1.all isBlank

def width (signs : List StyledSign) : Nat :=
  total (fun s => signColumns s.1) signs

/-- The signs in maximal runs of blanks and of words. -/
def runs (signs : List StyledSign) : List (List StyledSign) :=
  signs.splitBy fun a b => isBlankSign a = isBlankSign b

/-- Breaks runs of signs into lines of the given width.  `line` is what the current line holds so
far, and `gap` are the blanks after it. -/
def fill (room : Nat) : List StyledSign → List StyledSign → List (List StyledSign) →
    List (List StyledSign)
  | line, _, [] => [line]
  | line, gap, run :: runs =>
    if run.all isBlankSign then fill room line run runs
    else if line.isEmpty then fill room run [] runs
    else if width line + width gap + width run ≤ room then fill room (line ++ gap ++ run) [] runs
    else line :: fill room run [] runs

/-- The lines that some spans are broken into. -/
def lines (room : Nat) (spans : List Span) : List (List StyledSign) :=
  fill room [] [] (runs (Grid.styledSigns spans))

end Flow

/-- Draws lines of text in an area, broken at blanks where they do not fit. -/
def Grid.flow (g : Grid) (a : Area) (ls : List (List Span)) : Grid :=
  ((ls.flatMap (Flow.lines a.width)).take a.height).zipIdx.foldl
    (fun g (signs, n) => g.signsFrom (a.row n) 0 signs) g

end Reflow
