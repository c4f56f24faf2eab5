import Reflow.Text.Basic

/-!
# Line endings

Texts are worked on with a line feed at the end of a line.  `LineEnding.detect` reads the style off
the first line break, `LineEnding.normalize` turns `CR LF` into `LF`, and `LineEnding.apply` puts
the style back.
-/

namespace Reflow

/-- How the lines of a text end. -/
inductive LineEnding
  | lf
  | crlf
deriving DecidableEq, Repr

namespace LineEnding

/-- The style of the first line break; a text without one has line feeds. -/
def detect : Text → LineEnding
  | [] => lf
  | '\n' :: _ => lf
  | '\r' :: '\n' :: _ => crlf
  | _ :: t => detect t

def normalize : Text → Text
  | [] => []
  | '\r' :: '\n' :: t => '\n' :: normalize t
  | c :: t => c :: normalize t

def apply : LineEnding → Text → Text
  | lf, t => t
  | crlf, t => t.flatMap fun c => if c = '\n' then ['\r', '\n'] else [c]

end LineEnding

end Reflow
