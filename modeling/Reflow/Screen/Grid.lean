import Reflow.Screen.Sign
import Reflow.Screen.Style

/-!
# Grids

A screen is a grid of cells.  Boxes, titles and lines of text are drawn into areas of it; what does
not fit its area is left out.
-/

namespace Reflow

/-! ## Areas -/

/-- A rectangle of cells. -/
structure Area where
  left : Nat
  top : Nat
  width : Nat
  height : Nat
deriving DecidableEq, Repr

namespace Area

def inside (a : Area) : Area :=
  ⟨a.left + 1, a.top + 1, a.width - 2, a.height - 2⟩

def row (a : Area) (n : Nat) : Area :=
  ⟨a.left, a.top + n, a.width, 1⟩

def contains (a : Area) (x y : Nat) : Bool :=
  a.left ≤ x && x < a.left + a.width && a.top ≤ y && y < a.top + a.height

end Area

/-! ## Grids -/

/-- Rows of cells. -/
structure Grid where
  /-- The rows from top to bottom. -/
  rows : List (List Cell)
deriving DecidableEq, Repr

namespace Grid

def blank (width height : Nat) : Grid :=
  ⟨List.replicate height (List.replicate width {})⟩

def change (g : Grid) (x y : Nat) (f : Cell → Cell) : Grid :=
  ⟨g.rows.modify y fun row => row.modify x f⟩

def changeAll (g : Grid) (a : Area) (f : Cell → Cell) : Grid :=
  ⟨g.rows.mapIdx fun y row => row.mapIdx fun x cell => if a.contains x y then f cell else cell⟩

def restyle (g : Grid) (a : Area) (style : Style) : Grid :=
  g.changeAll a fun cell => cell.restyle style

def clear (g : Grid) (a : Area) : Grid :=
  g.changeAll a fun _ => {}

/-! ## Boxes -/

/-- The sign of the border of an area at one of its cells, or none inside of it. -/
def borderSign? (a : Area) (x y : Nat) : Option Char :=
  let right := a.left + a.width - 1
  let bottom := a.top + a.height - 1
  if y = a.top then some (if x = a.left then '┌' else if x = right then '┐' else '─')
  else if y = bottom then some (if x = a.left then '└' else if x = right then '┘' else '─')
  else if x = a.left || x = right then some '│'
  else none

def border (g : Grid) (a : Area) (style : Style) : Grid :=
  ⟨g.rows.mapIdx fun y row => row.mapIdx fun x cell =>
    if a.contains x y then
      match borderSign? a x y with
      | some c => cell.draw [c] style
      | none => cell
    else cell⟩

/-- Draws signs from a column on as long as they end before another column; what a wide sign covers
becomes blank. -/
def titleFrom (g : Grid) (y stop : Nat) (style : Style) : Nat → List Text → Grid
  | _, [] => g
  | x, sign :: signs =>
    let next := x + signColumns sign
    if stop < next then g
    else
      let g := g.change x y fun cell => cell.draw sign style
      let g := g.clear ⟨x + 1, y, next - (x + 1), 1⟩
      g.titleFrom y stop style next signs

/-- Draws a border in an area with a title in its first row. -/
def box (g : Grid) (a : Area) (style : Style) (title : Span) : Grid :=
  let signs := title.text.signs.filter fun sign => sign ≠ ['\n']
  (g.border a style).titleFrom a.top (a.left + a.width - 1) title.style (a.left + 1) signs

/-! ## Text -/

def styledSigns (spans : List Span) : List (Text × Style) :=
  spans.flatMap fun span =>
    (span.text.signs.filter fun sign => sign ≠ ['\n']).map fun sign => (sign, span.style)

/-- Draws signs in an area of one row, `used` columns of which are taken, up to the first sign that
does not fit any more.  Signs that take no columns are left out, and so are those that would not fit
in the whole area. -/
def signsFrom (g : Grid) (a : Area) : Nat → List (Text × Style) → Grid
  | _, [] => g
  | used, (sign, style) :: signs =>
    let columns := signColumns sign
    if columns = 0 || a.width < columns then g.signsFrom a used signs
    else if a.width < used + columns then g
    else
      (g.change (a.left + used) a.top fun cell => cell.draw sign style).signsFrom a
        (used + columns) signs

def line (g : Grid) (a : Area) (spans : List Span) : Grid :=
  g.signsFrom a 0 (styledSigns spans)

def lines (g : Grid) (a : Area) (ls : List (List Span)) : Grid :=
  (ls.take a.height).zipIdx.foldl (fun g (spans, n) => g.line (a.row n) spans) g

end Grid

end Reflow
