import Reflow.Text.Numeral

/-!
# Commands

What the editor can be asked to do: by a key, and by a line that is typed after a colon.
-/

namespace Reflow

inductive Motion
  | left
  | right
  | up
  | down
  | lineStart
  | lineEnd
  | pageUp
  | pageDown
deriving DecidableEq, Repr

/-- What the editor can be asked to do. -/
inductive Command
  /-- Moves the caret, with the selection growing along if `extend` says so. -/
  | move (motion : Motion) (extend : Bool)
  | insert (c : Char)
  | newline
  /-- Takes away the selection, or the character before the caret. -/
  | backspace
  /-- Takes away the selection, or the character after the caret. -/
  | delete
  /-- Wraps the selection, or the paragraph around the caret. -/
  | wrapParagraph
  /-- Wraps the selection, or the line of the caret. -/
  | wrapSelection
  /-- Copies the selection, or the line of the caret. -/
  | copy
  | save
  /-- Moves the wrap column by a number of columns. -/
  | adjustColumn (n : Int)
  | commandChar (c : Char)
  | commandBackspace
  | commandSubmit
  /-- Ends the session, unless something is not saved. -/
  | quit
deriving DecidableEq, Repr

/-- What a command line asks for. -/
inductive CommandLine
  | empty
  | write
  /-- To end the session, even if something is not saved in case of `force`. -/
  | quit (force : Bool)
  | writeQuit
  /-- To wrap the selection, or the paragraph around the caret. -/
  | wrap
  | setColumn (n : Nat)
  /-- To set the wrap column to what is no number. -/
  | notColumn (t : Text)
  /-- To balance lines, or to fill them. -/
  | setRagged (ragged : Bool)
  | setTabWidth (n : Nat)
  /-- To set the width of a tab to what is no positive number. -/
  | notTabWidth (t : Text)
  /-- To save the settings with those of the session. -/
  | saveSettings
  | unknown
deriving DecidableEq, Repr

namespace CommandLine

def ofWord : String → CommandLine
  | "w" => write
  | "q" => quit false
  | "q!" => quit true
  | "wq" => writeQuit
  | "x" => writeQuit
  | "wrap" => wrap
  | _ => unknown

/-- The command line that a word stands for together with the word after it. -/
def ofWords (name : String) (arg : Text) : CommandLine :=
  match name, String.ofList arg with
  | "wrap", _ => ((Numeral.read? arg).map setColumn).getD (notColumn arg)
  | "ragged", "on" => setRagged true
  | "ragged", "off" => setRagged false
  | "tab", _ =>
    match Numeral.read? arg with
    | some (n + 1) => setTabWidth (n + 1)
    | _ => notTabWidth arg
  | "settings", "save" => saveSettings
  | _, _ => unknown

/-- What a text asks for; words after the second one do not count. -/
def read (t : Text) : CommandLine :=
  match Text.words t with
  | [] => empty
  | [name] => ofWord (String.ofList name)
  | name :: arg :: _ => ofWords (String.ofList name) arg

end CommandLine

end Reflow
