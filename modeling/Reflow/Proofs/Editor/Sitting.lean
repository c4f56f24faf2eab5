import Reflow.Editor.Session

/-!
# Sittings

A sitting is a session with the world around it and the text that was saved last.  It goes on by what
happens (`Event`): keys and texts that are pasted, commands, command lines, a screen of another height, and
changes of the world from outside, which may come at any time.
-/

namespace Reflow

/-! ## What happens -/

inductive Event
  | press (key : Key)
  | paste (t : Text)
  | execute (c : Command)
  | runLine (t : Text)
  /-- The number of visible lines is another one. -/
  | resize (viewport : Nat)
  /-- The world has been changed from outside. -/
  | find (w : World)
deriving DecidableEq, Repr

/-- Whether a command line asks to save the text. -/
def CommandLine.asksToSave : CommandLine → Bool
  | write | writeQuit => true
  | _ => false

namespace Command

def line? (s : Session) : Command → Option CommandLine
  | commandSubmit => some (.read s.commandLine)
  | _ => none

def asksToSave (s : Session) (c : Command) : Bool :=
  c = .save || (c.line? s).any CommandLine.asksToSave

end Command

namespace Event

def command? (s : Session) : Event → Option Command
  | press key =>
    if s.helpShown then none
    else
      match key.response s.mode s.commandLine with
      | .run c => some c
      | _ => none
  | execute c => some c
  | _ => none

def line? (s : Session) (e : Event) : Option CommandLine :=
  match e with
  | runLine t => some (.read t)
  | e => (e.command? s).bind (Command.line? s)

def asksToSave (s : Session) (e : Event) : Bool :=
  e.command? s = some .save || (e.line? s).any CommandLine.asksToSave

/-- Whether an event ends the session, even if something is not saved. -/
def forcesQuit (s : Session) (e : Event) : Bool :=
  e.line? s = some (.quit true)

end Event

/-! ## What comes of it -/

namespace Session

/-- What comes of an event. -/
def handle (s : Session) (w : World) : Event → Session × World
  | .press key => s.press w key
  | .paste t => (s.paste t, w)
  | .execute c => s.execute w c
  | .runLine t => s.runLine w t
  | .resize viewport => ({ s with viewport }, w)
  | .find w => (s, w)

/-- Whether an event saves the text. -/
def saves (s : Session) (w : World) (e : Event) : Bool :=
  e.asksToSave s && (s.save w).isOk

end Session

structure Sitting where
  session : Session
  world : World
  /-- The text that was saved last, or the one at the start. -/
  saved : Text

namespace Sitting

def start (s : Session) (w : World) : Sitting :=
  ⟨s, w, s.buffer.text⟩

def take (d : Sitting) (e : Event) : Sitting :=
  let (session, world) := d.session.handle d.world e
  ⟨session, world, if d.session.saves d.world e then d.session.buffer.text else d.saved⟩

def run (d : Sitting) (events : List Event) : Sitting :=
  events.foldl take d

theorem run_append (d : Sitting) (front back : List Event) : d.run (front ++ back) = (d.run front).run back :=
  List.foldl_append

end Sitting

end Reflow
