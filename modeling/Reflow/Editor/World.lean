import Reflow.Settings.Environment

/-!
# The world around the editor

Files, the environment and a clipboard: what a session can change beside itself.
-/

namespace Reflow

structure Clipboard where
  /-- Whether it can be used at all. -/
  works : Bool := true
  /-- The text that has been put into it last. -/
  content : Option Text := none
deriving DecidableEq, Repr

/-- What a session can change beside itself. -/
structure World where
  files : FileTree
  environment : Environment
  clipboard : Clipboard := {}
deriving DecidableEq, Repr

def World.copy (w : World) (t : Text) : Except Error World :=
  if w.clipboard.works then .ok { w with clipboard.content := some t } else .error .clipboard

end Reflow
