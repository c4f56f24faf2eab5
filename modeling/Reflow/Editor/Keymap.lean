import Reflow.Editor.Command

/-!
# Keys

What each key asks for.  Some keys mean the same everywhere; what the others mean depends on whether
the text or the command line is being edited.
-/

namespace Reflow

/-- The key that is pressed, apart from the modifiers. -/
inductive KeyCode
  | char (c : Char)
  | function (n : Nat)
  | left
  | right
  | up
  | down
  | home
  | lineEnd
  | pageUp
  | pageDown
  | enter
  | backspace
  | delete
  | tab
  | escape
  /-- A key without a meaning here. -/
  | other
deriving DecidableEq, Repr

structure Key where
  code : KeyCode
  ctrl : Bool := false
  alt : Bool := false
  shift : Bool := false
deriving DecidableEq, Repr

inductive Mode
  | editing
  | command
deriving DecidableEq, Repr

/-- What a key asks for. -/
inductive Response
  | ignored
  | run (c : Command)
  | enter (mode : Mode)
  | help
deriving DecidableEq, Repr

namespace Response

/-- The first of two responses that asks for something. -/
def orElse : Response → Response → Response
  | ignored, r => r
  | r, _ => r

end Response

namespace Key

def everywhere (key : Key) : Response :=
  if key.code = .function 1 then .help else .ignored

def character (key : Key) (c : Char) : Response :=
  if key.alt && c = 'q' then .run .wrapParagraph
  else if key.ctrl && c = 'w' then .run .wrapSelection
  else if key.ctrl && c = 'y' then .run .copy
  else if key.ctrl && c = 's' then .run .save
  else if key.ctrl && c = 'q' then .run .quit
  else if key.alt && c = '[' then .run (.adjustColumn (-1))
  else if key.alt && c = ']' then .run (.adjustColumn 1)
  else if key.ctrl || key.alt then .ignored
  else .run (.insert c)

def inText (key : Key) : Response :=
  let move (m : Motion) : Response := .run (.move m key.shift)
  match key.code with
  | .left => move .left
  | .right => move .right
  | .up => move .up
  | .down => move .down
  | .home => move .lineStart
  | .lineEnd => move .lineEnd
  | .pageUp => move .pageUp
  | .pageDown => move .pageDown
  | .enter => .run .newline
  | .backspace => .run .backspace
  | .delete => .run .delete
  | .tab => .run (.insert '\t')
  | .escape => .enter .command
  | .char c => key.character c
  | .function _ | .other => .ignored

/-- What a key asks for in the command line `line`, which has an implied colon in front. -/
def inCommandLine (key : Key) (line : Text) : Response :=
  match key.code with
  | .escape => .enter .editing
  | .enter => .run .commandSubmit
  | .backspace => if line.isEmpty then .enter .editing else .run .commandBackspace
  | .char c => if line.isEmpty && c = ':' then .ignored else .run (.commandChar c)
  | _ => .ignored

/-- What a key asks for in a mode, with the given command line. -/
def response (key : Key) (mode : Mode) (line : Text) : Response :=
  key.everywhere.orElse <|
    match mode with
    | .editing => key.inText
    | .command => key.inCommandLine line

end Key

end Reflow
