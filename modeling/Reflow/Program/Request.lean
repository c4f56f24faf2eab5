import Reflow.Batch.Wrap
import Reflow.Program.Arguments
import Reflow.Program.LineRange

/-!
# Requests

What the program is asked to do by its arguments.  An option without a list may be given once only,
and numbers have to be whole and below `2 ^ 64`.
-/

namespace Reflow

structure Overrides where
  width : Option Nat := none
  tabWidth : Option Nat := none
  ragged : Bool := false
deriving DecidableEq, Repr

structure WrapRequest where
  /-- The files and directories, or none for the input. -/
  paths : List Path := []
  overrides : Overrides := {}
  /-- Whether every text is taken for prose. -/
  prose : Bool := false
  /-- Whether it is only told which files would change. -/
  check : Bool := false
  /-- Whether files that change are written. -/
  inPlace : Bool := false
  extensions : List Text := []
  /-- The written range of the lines that are wrapped. -/
  lines : Option Text := none
  /-- The line whose paragraph is wrapped, counted from one. -/
  paragraphAt : Option Nat := none
deriving DecidableEq, Repr

/-- What the program is asked to do. -/
inductive Request
  /-- To wrap files or the input. -/
  | wrap (r : WrapRequest)
  | edit (file : Path) (o : Overrides)
  /-- To show the settings, and to save them if `save` says so. -/
  | settings (save : Bool) (o : Overrides)
  | version
  | help
deriving DecidableEq, Repr

def Overrides.apply (o : Overrides) (s : Settings) : Settings :=
  { s with
    width := o.width.or s.width
    tabWidth := o.tabWidth.getD s.tabWidth
    ragged := s.ragged || o.ragged }

namespace WrapRequest

/-- The part of a text that is to be wrapped. -/
def scope (r : WrapRequest) : Except Error Scope :=
  match r.lines, r.paragraphAt with
  | some range, _ =>
    match LineRange.read? range with
    | some (first, last) => .ok (.lines first last)
    | none => .error (.range none (.malformed range))
  | none, some 0 => .error (.range none .zeroLine)
  | none, some (line + 1) => .ok (.paragraphAt line)
  | none, none => .ok .all

def mode (r : WrapRequest) : BatchMode :=
  if r.check then .check else if r.inPlace then .write else .print

def options (r : WrapRequest) : Except Error BatchOptions :=
  r.scope.map fun scope =>
    { mode := r.mode, scope, extensions := r.extensions, prose := r.prose }

end WrapRequest

namespace Request

/-! ## Options -/

/-- The options that give settings. -/
def overrideForms : List OptionForm :=
  [⟨"width", some 'w', true⟩, ⟨"tab-width", none, true⟩, ⟨"minimum-raggedness", none, false⟩]

def helpForms : List OptionForm :=
  [⟨"help", some 'h', false⟩]

def wrapForms : List OptionForm :=
  [⟨"plaintext", none, false⟩, ⟨"check", none, false⟩, ⟨"in-place", some 'i', false⟩,
    ⟨"ext", none, true⟩, ⟨"lines", none, true⟩, ⟨"paragraph-at", none, true⟩,
    ⟨"version", some 'V', false⟩] ++ overrideForms ++ helpForms

def editForms : List OptionForm :=
  overrideForms ++ helpForms

def settingsForms : List OptionForm :=
  [⟨"save", none, false⟩] ++ overrideForms ++ helpForms

/-! ## Reading -/

/-- A value for what must not have one yet. -/
def once {α : Type} (old : Option α) (new : Option α) : Except Stop (Option α) :=
  if old.isSome || new.isNone then .error .misuse else .ok new

/-- A flag that must not be set yet. -/
def onceFlag (old : Bool) : Except Stop Bool :=
  if old then .error .misuse else .ok true

def path (t : Text) : Except Stop Path :=
  if t.isEmpty then .error .misuse else .ok t

/-- Takes an argument that gives settings, or asks for help. -/
def takeOverride (o : Overrides) : Argument → Except Stop Overrides
  | .option "width" t => do return { o with width := ← once o.width (Numeral.read? t) }
  | .option "tab-width" t => do return { o with tabWidth := ← once o.tabWidth (Numeral.read? t) }
  | .flag "minimum-raggedness" => do return { o with ragged := ← onceFlag o.ragged }
  | .flag "help" => .error .help
  | _ => .error .misuse

def takeWrap (r : WrapRequest) : Argument → Except Stop WrapRequest
  | .operand t => do return { r with paths := r.paths ++ [← path t] }
  | .flag "plaintext" => do return { r with prose := ← onceFlag r.prose }
  | .flag "check" => do return { r with check := ← onceFlag r.check }
  | .flag "in-place" => do return { r with inPlace := ← onceFlag r.inPlace }
  | .flag "version" => .error .version
  | .option "ext" t => .ok { r with extensions := r.extensions ++ Text.splitOn ',' t }
  | .option "lines" t => do return { r with lines := ← once r.lines (some t) }
  | .option "paragraph-at" t => do
    return { r with paragraphAt := ← once r.paragraphAt (Numeral.read? t) }
  | arg => do return { r with overrides := ← takeOverride r.overrides arg }

def takeEdit (r : Option Path × Overrides) : Argument → Except Stop (Option Path × Overrides)
  | .operand t => do return (← once r.1 (some (← path t)), r.2)
  | arg => do return (r.1, ← takeOverride r.2 arg)

def takeSettings (r : Bool × Overrides) : Argument → Except Stop (Bool × Overrides)
  | .flag "save" => do return (← onceFlag r.1, r.2)
  | arg => do return (r.1, ← takeOverride r.2 arg)

/-- The words that name something else than wrapping. -/
def verbs : List String :=
  ["edit", "settings", "help"]

/-- Reads the arguments of the program. -/
def readVerb (args : List Text) : Except Stop Request :=
  let readWrap (args : List Text) : Except Stop Request := do
    let r ← Arguments.readAll wrapForms takeWrap {} args
    if (r.check && r.inPlace) || (r.lines.isSome && r.paragraphAt.isSome) then .error .misuse
    else .ok (.wrap r)
  match args with
  | [] => readWrap []
  | verb :: rest =>
    match String.ofList verb with
    | "edit" => do
      match ← Arguments.readAll editForms takeEdit (none, {}) rest with
      | (some file, o) => .ok (.edit file o)
      | (none, _) => .error .misuse
    | "settings" => do
      let (save, o) ← Arguments.readAll settingsForms takeSettings (false, {}) rest
      .ok (.settings save o)
    | "help" =>
      if rest.length ≤ 1 && rest.all fun t => verbs.contains (String.ofList t) then .ok .help
      else .error .misuse
    | _ => readWrap (verb :: rest)

/-- Reads the arguments of the program, unless they make no sense. -/
def read? (args : List Text) : Option Request :=
  match readVerb args with
  | .ok r => some r
  | .error .version => some .version
  | .error .help => some .help
  | .error .misuse => none

end Request

end Reflow
