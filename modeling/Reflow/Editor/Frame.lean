import Reflow.Editor.Help
import Reflow.Editor.LineView
import Reflow.Editor.Session

/-!
# Drawing the editor

The screen shows the visible lines of the text in a box, and below it a bar with a message or the
most useful keys.  The help covers them while it is shown.
-/

namespace Reflow

/-- A screen with the place of the caret, if it is to be seen. -/
structure Frame where
  grid : Grid
  /-- The column and the row of the caret. -/
  caret : Option (Nat × Nat)
deriving DecidableEq, Repr

namespace Session

/-! ## The text -/

def barHeight : Nat := 3

def textArea (width height : Nat) : Area :=
  ⟨0, 0, width, height - barHeight⟩

def title (s : Session) : Text :=
  match s.path with
  | none => "[scratch]".toList
  | some path => if s.dirty then path ++ " [+]".toList else path

/-- The spans of the visible lines, as many as there are rows. -/
def visibleLines (s : Session) (rows : Nat) : List (List Span) :=
  let paragraph := s.paragraph?
  let first := min s.scroll s.buffer.lines.length
  ((s.buffer.lines.drop first).take rows).zipIdx.map fun (t, n) =>
    let line := first + n
    let view : LineView := ⟨line, s.selection, s.wrapColumn, s.tabWidth⟩
    view.spans (paragraph.any fun p => p.1 ≤ line && line ≤ p.2) t

/-- Draws the mark of the wrap column: a bar in blank cells, and a line below other signs. -/
def drawGuide (s : Session) (g : Grid) (a : Area) : Grid :=
  if s.wrapColumn < a.width then
    g.changeAll ⟨a.left + s.wrapColumn, a.top, 1, a.height⟩ fun cell =>
      if cell.sign = [' '] then cell.draw ['│'] { ink := some .darkGray }
      else cell.restyle { underlined := true }
  else g

def drawCommandLine (s : Session) (g : Grid) (a : Area) : Grid :=
  let row := a.row (a.height - 1)
  (g.restyle row { ink := some .yellow }).line row
    [⟨':' :: s.commandLine.takeWhile (· ≠ '\n'), {}⟩]

/-- The column and the row of the caret in an area for the text. -/
def caretPlace (s : Session) (a : Area) : Option (Nat × Nat) :=
  match s.mode with
  | .command => some (a.left + s.commandLine.length + 1, a.top + (a.height - 1))
  | .editing =>
    let ⟨line, column⟩ := s.buffer.caret
    let x := displayColumn s.tabWidth (s.buffer.line line) column
    let y := line - s.scroll
    if y < a.height && x < a.width then some (a.left + x, a.top + y) else none

def drawText (s : Session) (g : Grid) (a : Area) : Grid :=
  let yellow : Style := { ink := some .yellow }
  let inner := a.inside
  let g := (g.box a yellow ⟨s.title, yellow⟩).lines inner (s.visibleLines inner.height)
  let g := s.drawGuide g inner
  if s.mode = .command then s.drawCommandLine g inner else g

/-! ## The bar -/

/-- The spans of keys with what they do. -/
def keySpans (keys : List (String × String)) : List Span :=
  let one (key : String × String) : List Span :=
    [⟨key.1.toList, { ink := some .yellow, bold := true }⟩, ⟨(": " ++ key.2).toList, {}⟩]
  [⟨" | ".toList, {}⟩].intercalate (keys.map one)

/-- The spans of the message, or of the most useful keys. -/
def messageSpans (s : Session) : List Span :=
  match s.mode, s.status with
  | .command, _ => keySpans [("Enter", "Run"), ("Esc", "Cancel")]
  | .editing, some message => [⟨message, { ink := some .cyan }⟩]
  | .editing, none =>
    keySpans [("Alt+Q", "Wrap paragraph"), ("Ctrl+W", "Wrap selection"), ("Esc", "Command"),
      ("F1", "Help")]

def positionText (s : Session) : String :=
  let ⟨line, column⟩ := s.buffer.caret
  let breaking := if s.ragged then "Min raggedness" else "Greedy"
  s!" | Ln {line + 1}, Col {column + 1} | Wrap: {s.wrapColumn} | Tab: {s.tabWidth} | {breaking}"

def drawBar (s : Session) (g : Grid) (a : Area) : Grid :=
  let yellow : Style := { ink := some .yellow }
  let gray : Style := { ink := some .gray }
  let row := a.inside
  ((g.box a yellow ⟨"Commands/Status".toList, yellow⟩).restyle row gray).line row
    (⟨[' '], {}⟩ :: s.messageSpans ++ [⟨s.positionText.toList, gray⟩])

/-! ## The whole screen -/

def frame (s : Session) (width height : Nat) : Frame :=
  let a := textArea width height
  let g := s.drawText (.blank width height) a
  let g := s.drawBar g ⟨0, a.height, width, barHeight⟩
  ⟨if s.helpShown then Help.draw g width height else g, s.caretPlace a.inside⟩

def fit (s : Session) (height : Nat) : Session :=
  { s with viewport := (textArea 0 height).inside.height }

end Session

end Reflow
