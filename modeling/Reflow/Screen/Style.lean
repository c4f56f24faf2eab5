import Reflow.Text.Basic

/-!
# Styles

The colors of a screen, and the cells that a screen is made of.
-/

namespace Reflow

inductive Color
  /-- The color that the screen has anyway. -/
  | unset
  | black
  | green
  | yellow
  | cyan
  | gray
  | darkGray
  | lightRed
  | white
  | mixed (red green blue : Nat)
deriving DecidableEq, Repr

structure Style where
  /-- The color of the sign, unless it is left as it is. -/
  ink : Option Color := none
  /-- The color behind the sign, unless it is left as it is. -/
  ground : Option Color := none
  bold : Bool := false
  underlined : Bool := false
deriving DecidableEq, Repr

structure Span where
  text : Text
  style : Style := {}
deriving DecidableEq, Repr

structure Cell where
  sign : Text := [' ']
  ink : Color := .unset
  /-- The color behind the sign. -/
  ground : Color := .unset
  bold : Bool := false
  underlined : Bool := false
deriving DecidableEq, Repr

namespace Cell

def restyle (cell : Cell) (style : Style) : Cell :=
  { cell with
    ink := style.ink.getD cell.ink
    ground := style.ground.getD cell.ground
    bold := cell.bold || style.bold
    underlined := cell.underlined || style.underlined }

def draw (cell : Cell) (sign : Text) (style : Style) : Cell :=
  { cell with sign }.restyle style

end Cell

end Reflow
