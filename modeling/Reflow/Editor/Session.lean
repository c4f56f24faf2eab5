import Reflow.Buffer.Wrap
import Reflow.Editor.Keymap
import Reflow.Editor.World
import Reflow.Settings.Store

/-!
# Editing sessions

A session holds the text that is being edited and all that belongs to the editing.  `Session.execute`
runs a command, `Session.press` a key and `Session.paste` a text that is pasted.  Only saving and
copying change the world.
-/

namespace Reflow

/-- The state of the editor. -/
structure Session where
  buffer : Buffer
  path : Option Path
  settings : Settings
  wrapColumn : Nat
  tabWidth : Nat
  /-- Whether lines are balanced instead of filled. -/
  ragged : Bool
  mode : Mode := .editing
  /-- The command line, without its colon. -/
  commandLine : Text := []
  status : Option Text := none
  helpShown : Bool := false
  /-- Whether there are edits that are not saved. -/
  dirty : Bool := false
  /-- The first line that is visible. -/
  scroll : Nat := 0
  viewport : Nat := 20
  /-- The style of line endings that the text is saved with. -/
  lineEnding : LineEnding
  /-- Where the selection began. -/
  anchor : Option Position := none
  finished : Bool := false
deriving DecidableEq, Repr

def minWrapColumn : Nat := 10

def maxWrapColumn : Nat := 400

namespace Session

/-! ## Beginning -/

def ofText (t : Text) (path : Option Path) (settings : Settings) : Session where
  buffer := .ofText (LineEnding.normalize t)
  path
  settings
  wrapColumn := settings.width.getD 80
  tabWidth := settings.tabWidth
  ragged := settings.ragged
  lineEnding := .detect t

/-- A session for a file, which is empty if there is nothing at its path. -/
def ofFile (fs : FileTree) (path : Path) (settings : Settings) : Except Error Session := do
  let t ← if fs.contains path then fs.readText path else .ok []
  return ofText t (some path) settings

/-! ## What a session shows -/

/-- What is selected, with the earlier end first. -/
def selection (s : Session) : Option Selection :=
  ((s.anchor.map fun anchor => ⟨anchor, s.buffer.caret⟩).filter fun x => !x.isEmpty).map
    Selection.normalized

def options (s : Session) : Options :=
  { s.settings.optionsFor s.path s.wrapColumn with
    width := s.wrapColumn, tabWidth := s.tabWidth, ragged := s.ragged }

def wrapper? (s : Session) : Option Wrapper :=
  Wrapper.ofOptions? s.options

def paragraph? (s : Session) : Option (Nat × Nat) := do
  (← s.wrapper?).markers.paragraph? s.buffer.lines s.buffer.caret.line

def say (s : Session) (message : String) : Session :=
  { s with status := some message.toList }

def sayError (s : Session) (e : Error) : Session :=
  s.say e.message

/-! ## Moving -/

def page (s : Session) : Nat :=
  max s.viewport 1

/-- The position that a motion leads to from the caret, which may be past the end of a line. -/
def target (s : Session) (m : Motion) : Position :=
  let b := s.buffer
  let ⟨line, column⟩ := b.caret
  match m with
  | .left =>
    if 0 < column then ⟨line, column - 1⟩
    else if 0 < line then ⟨line - 1, b.lineLength (line - 1)⟩
    else ⟨line, column⟩
  | .right =>
    if column < b.lineLength line then ⟨line, column + 1⟩
    else if line < b.lastLine then ⟨line + 1, 0⟩
    else ⟨line, column⟩
  | .up => ⟨line - 1, column⟩
  | .down => ⟨min (line + 1) b.lastLine, column⟩
  | .lineStart => ⟨line, 0⟩
  | .lineEnd => ⟨line, b.lineLength line⟩
  | .pageUp => ⟨line - s.page, column⟩
  | .pageDown => ⟨min (line + s.page) b.lastLine, column⟩

/-- Moves the caret; the selection begins where the caret was, or ends. -/
def move (s : Session) (m : Motion) (extend : Bool) : Session :=
  { s with
    buffer := s.buffer.setCaret (s.target m)
    anchor := if extend then s.anchor.or (some s.buffer.caret) else none }

/-- Scrolls as far as it takes to show the line of the caret. -/
def follow (s : Session) : Session :=
  let line := s.buffer.caret.line
  if line < s.scroll then { s with scroll := line }
  else if s.scroll + s.page ≤ line then { s with scroll := line + 1 - s.page }
  else s

/-! ## Editing -/

/-- Takes away what is selected, and edits the buffer after that. -/
def edit (s : Session) (f : Buffer → Buffer) : Session :=
  let cleared :=
    match s.selection with
    | some selected => (s.buffer.replace selected []).1
    | none => s.buffer
  { s with buffer := f cleared, anchor := none, dirty := true }

/-- Takes away what is selected, or edits the buffer if nothing is. -/
def erase (s : Session) (f : Buffer → Buffer) : Session :=
  if s.selection.isSome then s.edit id else s.edit f

/-- Wraps in the buffer by one of the ways of wrapping, and tells what came of it. -/
def wrapBy (s : Session) (f : Buffer → Wrapper → Option Selection → Buffer × WrapOutcome) :
    Session :=
  match s.wrapper? with
  | none => s.sayError .pattern
  | some w =>
    let (buffer, outcome) := f s.buffer w s.selection
    let s := { s with buffer, anchor := none }
    match outcome with
    | .wrapped first last =>
      { s with dirty := true }.say
        s!"Wrapped lines {first + 1}-{last + 1} at column {s.wrapColumn}"
    | .unchanged => s.say "Nothing to wrap"

def setWrapColumn (s : Session) (n : Nat) : Session :=
  let column := max minWrapColumn (min n maxWrapColumn)
  { s with wrapColumn := column }.say s!"Wrap column {column}"

/-! ## Saving and copying -/

def save (s : Session) (w : World) : Except Error (Session × World) :=
  match s.path with
  | none => .error (.config .noFileName)
  | some path => do
    let files ← w.files.writeText path (s.lineEnding.apply s.buffer.text)
    return ({ s with dirty := false }, { w with files })

def savedMessage (s : Session) : String :=
  "Wrote " ++ String.ofList (s.path.getD [])

/-- Writes the text to its file and tells what came of it. -/
def saveAloud (s : Session) (w : World) : Session × World :=
  match s.save w with
  | .ok (s, w) => (s.say s.savedMessage, w)
  | .error e => (s.sayError e, w)

/-- Ends the session, unless there are edits that are not saved and it is not forced. -/
def quit (s : Session) (force : Bool) : Session :=
  if s.dirty && !force then s.say "Unsaved changes: :w to save, :q! to discard"
  else { s with finished := true }

def copy (s : Session) (w : World) : Session × World :=
  let line := s.buffer.caret.line
  let t := s.buffer.textIn (s.selection.getD (.ofLines s.buffer.lines line line))
  match w.copy t with
  | .ok w => (s.say s!"Copied {t.length} characters", w)
  | .error e => (s.sayError e, w)

def chosenSettings (s : Session) : Settings :=
  { s.settings with width := some s.wrapColumn, ragged := s.ragged, tabWidth := s.tabWidth }

def saveSettings (s : Session) (w : World) : Session × World :=
  let s := { s with settings := s.chosenSettings }
  match s.settings.save w.files w.environment with
  | .ok (files, path) => (s.say ("Settings saved to " ++ String.ofList path), { w with files })
  | .error e => (s.sayError e, w)

/-! ## Commands -/

def runLine (s : Session) (w : World) (t : Text) : Session × World :=
  match CommandLine.read t with
  | .empty => (s, w)
  | .write => s.saveAloud w
  | .quit force => (s.quit force, w)
  | .writeQuit =>
    match s.save w with
    | .ok (s, w) => (s.quit false, w)
    | .error e => (s.sayError e, w)
  | .wrap => (s.wrapBy Buffer.wrapParagraph, w)
  | .setColumn n => (s.setWrapColumn n, w)
  | .notColumn arg => (s.say ("Not a column: " ++ String.ofList arg), w)
  | .setRagged ragged =>
    ({ s with ragged }.say ("Minimum raggedness " ++ if ragged then "on" else "off"), w)
  | .setTabWidth n => ({ s with tabWidth := n }.say s!"Tab width {n}", w)
  | .notTabWidth arg => (s.say ("Not a tab width: " ++ String.ofList arg), w)
  | .saveSettings => s.saveSettings w
  | .unknown => (s.say ("Unknown command: " ++ String.ofList t), w)

/-- Runs a command, without scrolling. -/
def perform (s : Session) (w : World) : Command → Session × World
  | .move m extend => (s.move m extend, w)
  | .insert c => (s.edit fun b => b.insert c, w)
  | .newline => (s.edit fun b => b.insert '\n', w)
  | .backspace => (s.erase Buffer.deleteBackward, w)
  | .delete => (s.erase Buffer.deleteForward, w)
  | .wrapParagraph => (s.wrapBy Buffer.wrapParagraph, w)
  | .wrapSelection => (s.wrapBy Buffer.wrapSelection, w)
  | .copy => s.copy w
  | .save => s.saveAloud w
  | .adjustColumn n => (s.setWrapColumn (s.wrapColumn + n).toNat, w)
  | .commandChar c => ({ s with commandLine := s.commandLine ++ [c] }, w)
  | .commandBackspace => ({ s with commandLine := s.commandLine.dropLast }, w)
  | .commandSubmit => { s with commandLine := [], mode := .editing }.runLine w s.commandLine
  | .quit => (s.quit false, w)

def execute (s : Session) (w : World) (c : Command) : Session × World :=
  let (s, w) := s.perform w c
  (s.follow, w)

/-! ## Input -/

/-- Does what a key asks for.  While the help is shown, any key closes it and does nothing else; a key
in the text takes the message away from the status bar. -/
def press (s : Session) (w : World) (key : Key) : Session × World :=
  if s.helpShown then ({ s with helpShown := false }, w)
  else
    let s := if s.mode = .editing then { s with status := none } else s
    match key.response s.mode s.commandLine with
    | .ignored => (s, w)
    | .run c => s.execute w c
    | .enter mode => ({ s with mode, commandLine := [] }, w)
    | .help => ({ s with helpShown := true }, w)

/-- The first line of a text, without its line ending. -/
def firstLine (t : Text) : Text :=
  let line := t.takeWhile (· ≠ '\n')
  if line.length < t.length && line.getLast? = some '\r' then line.dropLast else line

/-- Puts a text in at the caret, in place of what is selected, or its first line at the end of the
command line. -/
def paste (s : Session) (t : Text) : Session :=
  match s.mode with
  | .editing => (s.edit fun b => b.insertText (LineEnding.normalize t)).follow
  | .command => { s with commandLine := s.commandLine ++ firstLine t }

end Session

end Reflow
