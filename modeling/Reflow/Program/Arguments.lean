import Reflow.Text.Basic

/-!
# Arguments

The arguments of a program are options, which start with a dash, and operands.  An option has a long
name and perhaps a letter, and some options take a value, which is attached or is the next argument.
All that follows a double dash is an operand.
-/

namespace Reflow

/-- An option that a program knows. -/
structure OptionForm where
  /-- The name that follows two dashes. -/
  name : String
  /-- The letter that follows one dash. -/
  letter : Option Char := none
  takesValue : Bool := false
deriving DecidableEq, Repr

/-- An argument in its role. -/
inductive Argument
  | flag (name : String)
  | option (name : String) (value : Text)
  | operand (t : Text)
deriving DecidableEq, Repr

/-- Why the arguments are not read to the end. -/
inductive Stop
  | misuse
  | version
  | help
deriving DecidableEq, Repr

namespace Arguments

structure Reading (α : Type) where
  value : α
  /-- The option that the next argument is the value of. -/
  awaiting : Option String := none
  operandsOnly : Bool := false

/-- Whether an argument cannot be the value of the option before it. -/
def looksLikeOption : Text → Bool
  | '-' :: _ :: _ => true
  | _ => false

variable {α : Type} (forms : List OptionForm) (take : α → Argument → Except Stop α)

/-- Reads an argument that starts with two dashes, without them: the name of an option, and perhaps
an equals sign and a value. -/
def readLong (a : α) (t : Text) : Except Stop (Reading α) :=
  let value := (t.dropWhile (· ≠ '=')).tail?
  match forms.find? fun form => form.name.toList = t.takeWhile (· ≠ '=') with
  | none => .error .misuse
  | some form =>
    match form.takesValue, value with
    | true, some value => (take a (.option form.name value)).map fun a => { value := a }
    | true, none => .ok { value := a, awaiting := some form.name }
    | false, some _ => .error .misuse
    | false, none => (take a (.flag form.name)).map fun a => { value := a }

/-- Reads an argument that starts with one dash, without it: the letters of options, the last of which
may have a value attached to it. -/
def readLetters (a : α) : Text → Except Stop (Reading α)
  | [] => .ok { value := a }
  | c :: t =>
    match forms.find? fun form => form.letter = some c with
    | none => .error .misuse
    | some form =>
      if form.takesValue then
        if t.isEmpty then .ok { value := a, awaiting := some form.name }
        else
          let value := (Text.after? ['='] t).getD t
          (take a (.option form.name value)).map fun a => { value := a }
      else do readLetters (← take a (.flag form.name)) t

def readOne (r : Reading α) (arg : Text) : Except Stop (Reading α) :=
  match r.awaiting with
  | some name =>
    if looksLikeOption arg then .error .misuse
    else (take r.value (.option name arg)).map fun a => { value := a }
  | none =>
    if r.operandsOnly then
      (take r.value (.operand arg)).map fun a => { r with value := a }
    else
      match arg with
      | ['-', '-'] => .ok { r with operandsOnly := true }
      | '-' :: '-' :: t => readLong forms take r.value t
      | '-' :: c :: t => readLetters forms take r.value (c :: t)
      | arg => (take r.value (.operand arg)).map fun a => { r with value := a }

/-- Reads all arguments, where `take` adds one of them to what has been read. -/
def readAll (a : α) (args : List Text) : Except Stop α := do
  let r ← args.foldlM (readOne forms take) { value := a }
  if r.awaiting.isSome then .error .misuse else .ok r.value

end Arguments

end Reflow
