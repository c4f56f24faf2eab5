import Reflow.Buffer.Wrap
import Reflow.Error
import Reflow.Settings.Basic

/-!
# Wrapping the text of a file

A text is wrapped as the settings ask for a file of its type, either as a whole or in some of its
lines only.
-/

namespace Reflow

/-- The part of a text that is wrapped, with lines counted from zero. -/
inductive Scope
  | all
  | lines (first last : Nat)
  | paragraphAt (line : Nat)
deriving DecidableEq, Repr

/-- What is done with wrapped files. -/
inductive BatchMode
  /-- Files that change are written. -/
  | write
  /-- It is only told which files would change. -/
  | check
  /-- The wrapped texts are given out. -/
  | print
deriving DecidableEq, Repr

structure BatchOptions where
  mode : BatchMode := .print
  scope : Scope := .all
  /-- The file types that are looked for in directories, or none for all. -/
  extensions : List Text := []
  /-- The width if the settings have none. -/
  fallbackWidth : Nat := 80
  /-- Whether every text is taken for prose. -/
  prose : Bool := false
deriving DecidableEq, Repr

namespace Batch

def optionsFor (s : Settings) (o : BatchOptions) (p : Option Path) : Options :=
  let options := s.optionsFor p o.fallbackWidth
  if o.prose then { options with leader := Options.prose.leader, hangLists := Options.prose.hangLists }
  else options

/-- Wraps the lines in a buffer that a scope names, if they are in it. -/
def wrapScope (w : Wrapper) (scope : Scope) (p : Option Path) (t : Text) : Except Error Text :=
  let b := Buffer.ofText t
  let check (line : Nat) : Except Error Unit :=
    if line < b.lines.length then .ok ()
    else .error (.range p (.pastEnd (line + 1) b.lines.length))
  match scope with
  | .all => .ok (w.wrap t)
  | .lines first last => do
    check last
    return (b.wrapSelection w (some (.ofLines b.lines first last))).1.text
  | .paragraphAt line => do
    check line
    return ((b.setCaret ⟨line, 0⟩).wrapParagraph w none).1.text

/-- Wraps a text as the content of the file at a path; the style of its line endings is kept. -/
def wrapText (s : Settings) (o : BatchOptions) (p : Option Path) (t : Text) : Except Error Text := do
  match Wrapper.ofOptions? (optionsFor s o p) with
  | none => .error .pattern
  | some w =>
    return (LineEnding.detect t).apply (← wrapScope w o.scope p (LineEnding.normalize t))

end Batch

end Reflow
