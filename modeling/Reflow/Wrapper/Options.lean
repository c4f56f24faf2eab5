import Reflow.Comment.Markers

/-!
# Options of wrapping
-/

namespace Reflow

/-- How a text is to be wrapped. -/
structure Options where
  width : Nat := 80
  tabWidth : Nat := 4
  /-- Whether lines are balanced instead of filled. -/
  ragged : Bool := false
  /-- Whether the lines of a list item hang under its text. -/
  hangLists : Bool := false
  /-- The written pattern of the comment leaders. -/
  leader : Text := codeLeader
deriving DecidableEq, Repr

def Options.prose : Options where
  hangLists := true
  leader := proseLeader

/-- The options with a width and a tab width of at least one. -/
def Options.clamp (o : Options) : Options :=
  { o with width := max o.width 1, tabWidth := max o.tabWidth 1 }

end Reflow
