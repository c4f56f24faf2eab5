import Reflow.Character.Word
import Reflow.Settings.Environment

/-!
# Variable files

A file named `.env` gives values to variables that have none, one variable in each line: a name, an
equals sign and a value, which may be quoted and may refer to other variables.  Blank lines and
comments do not count, and the first line that is broken ends the reading.
-/

namespace Reflow.DotEnv

/-! ## Values -/

/-- Whether a character can be in the name of a variable that a value refers to. -/
def isNameChar (c : Char) : Bool :=
  if c.toNat < 128 then c.isAlphanum else isWord c

/-- Where in a value the reader is. -/
inductive Mode
  | plain
  /-- Between double quotes. -/
  | quoted
  /-- Between single quotes. -/
  | literal
  /-- After the value, where only a comment may follow. -/
  | done
deriving DecidableEq, Repr

/-- What a value refers to at the current place. -/
inductive Reference
  | none
  /-- A variable whose name so far, in reverse, comes right after the dollar sign. -/
  | bare (name : Text)
  /-- A variable whose name so far, in reverse, is in braces. -/
  | braced (name : Text)
deriving DecidableEq, Repr

/-- Reads a value; `read` is what has been read in reverse, `escaped` says that a backslash came just
before, and `value` gives the values of variables.  A character that ends a reference without braces
is taken as it is. -/
def valueFrom? (value : Text → Text) : Mode → Reference → Bool → Text → Text → Option Text
  | mode, reference, _, read, [] =>
    match mode, reference with
    | _, .braced _ => none
    | .quoted, _ => none
    | .literal, _ => none
    | _, .bare name => some (read.reverse ++ value name.reverse)
    | _, .none => some read.reverse
  | mode, reference, escaped, read, c :: t =>
    if mode = .done then
      if c = ' ' || c = '\t' then valueFrom? value mode reference escaped read t
      else if c = '#' then some read.reverse else none
    else if escaped then
      match c with
      | '\\' | '\'' | '"' | '$' | ' ' => valueFrom? value mode reference false (c :: read) t
      | 'n' => valueFrom? value mode reference false ('\n' :: read) t
      | _ => none
    else if mode = .literal then
      if c = '\'' then valueFrom? value .plain reference false read t
      else valueFrom? value mode reference false (c :: read) t
    else
      match reference with
      | .bare name =>
        if isNameChar c then valueFrom? value mode (.bare (c :: name)) false read t
        else if c = '\x7b' && name.isEmpty then valueFrom? value mode (.braced []) false read t
        else
          let read := (value name.reverse).reverse ++ read
          if c = '$' then valueFrom? value mode (.bare []) false read t
          else valueFrom? value mode .none false (c :: read) t
      | .braced name =>
        if c = '\x7d' then
          valueFrom? value mode .none false ((value name.reverse).reverse ++ read) t
        else valueFrom? value mode (.braced (c :: name)) false read t
      | .none =>
        if c = '$' then valueFrom? value mode (.bare []) false read t
        else if c = '\\' then valueFrom? value mode .none true read t
        else if mode = .quoted then
          if c = '"' then valueFrom? value .plain .none false read t
          else valueFrom? value mode .none false (c :: read) t
        else if c = '\'' then valueFrom? value .literal .none false read t
        else if c = '"' then valueFrom? value .quoted .none false read t
        else if c = ' ' || c = '\t' then valueFrom? value .done .none false read t
        else valueFrom? value mode .none false (c :: read) t

/-! ## Lines -/

def name? (t : Text) : Option (Text × Text) :=
  let inName := fun c : Char => c.isAlphanum || c = '_' || c = '.'
  if t.head?.any fun c => c.isAlpha || c = '_' then some (t.takeWhile inName, t.dropWhile inName)
  else none

/-- Reads a line that gives a value to a variable; the word `export` may come first.  A line without
one is not broken but gives none. -/
def line? (value : Text → Text) (t : Text) : Option (Option (Text × Text)) := do
  let t := Text.trimStart (Text.dropEndWhile isBlank t)
  if t.isEmpty || t.head? = some '#' then return none
  let (name, t) ← name? t
  let t := Text.trimStart t
  let (name, t) ←
    if name = "export".toList && t.head? ≠ some '=' then do
      let (name, t) ← name? t
      pure (name, Text.trimStart t)
    else pure (name, t)
  let t := Text.trimStart (← Text.after? ['='] t)
  if t.isEmpty || t.head? = some '#' then return some (name, [])
  return some (name, ← valueFrom? value .plain .none false [] t)

/-- The environment with the variables of some lines, where `given` are the values that the lines
before have given. -/
def applyLines : Environment → List (Text × Text) → List Text → Environment
  | env, _, [] => env
  | env, given, line :: lines =>
    let line := if line.getLast? = some '\r' then line.dropLast else line
    let value (name : Text) : Text := ((env.lookup name).or (given.lookup name)).getD []
    match line? value line with
    | none => env
    | some none => applyLines env given lines
    | some (some (name, v)) => applyLines (env.offer name v) ((name, v) :: given) lines

def find? (fs : FileTree) : Nat → Place → Option Entry
  | 0, _ => none
  | n + 1, place =>
    match fs.get? (place ++ [".env".toList]) with
    | none => if place.isEmpty then none else find? fs n place.dropLast
    | some .directory => if place.isEmpty then none else find? fs n place.dropLast
    | some e => some e

/-- The lines of a file that is no text, up to the first one that is none. -/
def textLines (bytes : List UInt8) : List Text :=
  let line? (t : Text) : Option Text :=
    (String.fromUTF8? ⟨(t.map fun c => UInt8.ofNat c.toNat).toArray⟩).map String.toList
  let lines := (Text.lines (bytes.map fun b => Char.ofNat b.toNat)).map line?
  (lines.takeWhile Option.isSome).filterMap id

/-- The environment with the variables of the variable file. -/
def apply (fs : FileTree) (env : Environment) : Environment :=
  match find? fs (fs.here.length + 1) fs.here with
  | some (.file t) => applyLines env [] (Text.lines t)
  | some (.binary bytes) => applyLines env [] (textLines bytes)
  | _ => env

end Reflow.DotEnv
