import Reflow.Files.Access
import Reflow.Settings.Basic
import Reflow.Text.Numeral

/-!
# Settings in the environment

Variables of the environment override the settings of the file.  A variable whose value makes no
sense is left out of account.
-/

namespace Reflow

/-- The variables of an environment with their values. -/
abbrev Environment := List (Text × Text)

namespace Environment

def get? (env : Environment) (name : String) : Option Text :=
  env.lookup name.toList

/-- The environment with a variable that has no value yet set to one. -/
def offer (env : Environment) (name value : Text) : Environment :=
  if (env.lookup name).isSome then env else (name, value) :: env

def home? (env : Environment) : Option Path :=
  (env.get? "HOME").filter fun p => !p.isEmpty

/-- The directory that configuration is kept in. -/
def configDirectory? (env : Environment) : Option Path :=
  match (env.get? "XDG_CONFIG_HOME").filter Path.isAbsolute with
  | some p => some p
  | none => env.home?.map fun p => p.join ".config".toList

/-- The path with the home directory for a tilde at its start. -/
def expandTilde (env : Environment) (p : Path) : Path :=
  match p, env.home? with
  | ['~'], some home => home
  | '~' :: '/' :: rest, some home => home ++ '/' :: rest
  | p, _ => p

/-- The path of the settings file. -/
def settingsPath? (env : Environment) : Option Path :=
  match env.get? "COLWRAP_SETTINGS" with
  | some p => some (env.expandTilde p)
  | none => env.configDirectory?.map fun p => (p.join "colwrap".toList).join "settings.json".toList

end Environment

namespace Settings

/-- The truth value that a word stands for. -/
def flag? (t : Text) : Option Bool :=
  let word := String.ofList ((Text.trim t).map Char.toLower)
  if ["1", "true", "yes", "on"].contains word then some true
  else if ["0", "false", "no", "off"].contains word then some false
  else none

/-- The positive number that a text with blanks around it stands for. -/
def positive? (t : Text) : Option Nat :=
  (Numeral.read? (Text.trim t)).filter fun n => 0 < n

/-- The settings with those that the environment overrides. -/
def applyEnvironment (s : Settings) (env : Environment) : Settings :=
  { width := ((env.get? "COLWRAP_WIDTH").bind positive?).or s.width
    ragged := ((env.get? "COLWRAP_MINIMUM_RAGGEDNESS").bind flag?).getD s.ragged
    proseTypes := (env.get? "COLWRAP_PLAINTEXT_TYPES").getD s.proseTypes
    tabWidth := ((env.get? "COLWRAP_TAB_WIDTH").bind positive?).getD s.tabWidth }

end Settings

end Reflow
