import Reflow.Text.Basic

/-!
# Text buffers

A buffer holds the lines of a text and a caret.  Positions count lines and columns from zero.  What
is selected is given by two positions in either order, which are brought into the buffer one by one
wherever a selection is read or replaced.
-/

namespace Reflow

/-- A place in a text: a line and a column of it. -/
structure Position where
  /-- The line, from zero. -/
  line : Nat
  /-- The number of characters of the line before it. -/
  column : Nat
deriving DecidableEq, Repr

def Position.isBefore (p q : Position) : Bool :=
  p.line < q.line || (p.line = q.line && p.column < q.column)

/-! ## Selections -/

/-- A stretch of a text between two positions. -/
structure Selection where
  start : Position
  stop : Position
deriving DecidableEq, Repr

namespace Selection

def normalized (s : Selection) : Selection :=
  if s.stop.isBefore s.start then ⟨s.stop, s.start⟩ else s

def isEmpty (s : Selection) : Bool :=
  s.start = s.stop

def ofLines (lines : List Text) (first last : Nat) : Selection :=
  ⟨⟨first, 0⟩, ⟨last, (lines[last]?.getD []).length⟩⟩

end Selection

/-! ## Buffers -/

/-- The lines of a text and a caret. -/
structure Buffer where
  lines : List Text
  caret : Position
deriving DecidableEq, Repr

namespace Buffer

def ofText (t : Text) : Buffer :=
  ⟨Text.lines t, ⟨0, 0⟩⟩

def text (b : Buffer) : Text :=
  Text.ofLines b.lines

/-- A line of the buffer, which is empty past the end. -/
def line (b : Buffer) (n : Nat) : Text :=
  b.lines[n]?.getD []

def lineLength (b : Buffer) (n : Nat) : Nat :=
  (b.line n).length

def lastLine (b : Buffer) : Nat :=
  b.lines.length - 1

/-- The position brought into the buffer: into its lines first, and then into the line. -/
def clamp (b : Buffer) (p : Position) : Position :=
  let line := min p.line b.lastLine
  ⟨line, min p.column (b.lineLength line)⟩

/-- The selection with its earlier end first and both ends in the buffer. -/
def clampSelection (b : Buffer) (s : Selection) : Selection :=
  let s := s.normalized
  ⟨b.clamp s.start, b.clamp s.stop⟩

def textIn (b : Buffer) (s : Selection) : Text :=
  let s := b.clampSelection s
  if s.start.line = s.stop.line then
    (b.line s.start.line).take s.stop.column |>.drop s.start.column
  else
    Text.ofLines <|
      (b.line s.start.line).drop s.start.column ::
        (b.lines.take s.stop.line).drop (s.start.line + 1) ++
        [(b.line s.stop.line).take s.stop.column]

/-- The buffer with a text in place of a selection and the caret at the end of it, and the first and
the last line that the text is on. -/
def replace (b : Buffer) (s : Selection) (t : Text) : Buffer × Nat × Nat :=
  let s := b.clampSelection s
  let head := (b.line s.start.line).take s.start.column
  let tail := (b.line s.stop.line).drop s.stop.column
  let inserted := Text.lines (head ++ t ++ tail)
  let last := s.start.line + inserted.length - 1
  let width := ((Text.lines t).getLastD []).length
  let column := if t.contains '\n' then width else s.start.column + width
  (⟨b.lines.take s.start.line ++ inserted ++ b.lines.drop (s.stop.line + 1), ⟨last, column⟩⟩,
    s.start.line, last)

def setCaret (b : Buffer) (p : Position) : Buffer :=
  { b with caret := b.clamp p }

/-! ## Typing -/

def splice (b : Buffer) (first last : Nat) (lines : List Text) (caret : Position) : Buffer :=
  ⟨b.lines.take first ++ lines ++ b.lines.drop (last + 1), caret⟩

/-- Puts a character in at the caret; a line feed splits the line. -/
def insert (b : Buffer) (c : Char) : Buffer :=
  let ⟨n, column⟩ := b.caret
  let head := (b.line n).take column
  let tail := (b.line n).drop column
  if c = '\n' then b.splice n n [head, tail] ⟨n + 1, 0⟩
  else b.splice n n [head ++ c :: tail] ⟨n, column + 1⟩

def insertText (b : Buffer) (t : Text) : Buffer :=
  t.foldl insert b

/-- Takes away the character before the caret, or joins the line to the one before it. -/
def deleteBackward (b : Buffer) : Buffer :=
  let ⟨n, column⟩ := b.caret
  if 0 < column then b.splice n n [(b.line n).eraseIdx (column - 1)] ⟨n, column - 1⟩
  else if 0 < n then
    b.splice (n - 1) n [b.line (n - 1) ++ b.line n] ⟨n - 1, b.lineLength (n - 1)⟩
  else b

/-- Takes away the character after the caret, or joins the next line to the line. -/
def deleteForward (b : Buffer) : Buffer :=
  let ⟨n, column⟩ := b.caret
  if column < b.lineLength n then b.splice n n [(b.line n).eraseIdx column] b.caret
  else if n + 1 < b.lines.length then b.splice n (n + 1) [b.line n ++ b.line (n + 1)] b.caret
  else b

end Buffer

end Reflow
