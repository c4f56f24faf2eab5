import Reflow.Settings.DotEnv
import Reflow.Settings.Format

/-!
# Keeping settings

Settings are loaded from their file, with what the environment overrides, and saved to it.
-/

namespace Reflow.Settings

/-- The settings in the file at a path. -/
def loadFrom (fs : FileTree) (p : Path) : Except Error Settings := do
  match read? (← fs.readText p) with
  | some s => .ok s
  | none => .error .settings

/-- The settings in the settings file, or the usual ones if there is none, with what the environment
overrides.  The variables of the variable file count as part of the environment. -/
def load (fs : FileTree) (env : Environment) : Except Error Settings := do
  let env := DotEnv.apply fs env
  let s ← match env.settingsPath? with
    | some p => if fs.isFile p then loadFrom fs p else .ok {}
    | none => .ok {}
  return s.applyEnvironment env

def saveTo (s : Settings) (fs : FileTree) (p : Path) : Except Error FileTree := do
  let fs ← match p.parent? with
    | some parent => fs.ensureDirectory parent
    | none => .ok fs
  fs.writeText p s.print

def save (s : Settings) (fs : FileTree) (env : Environment) : Except Error (FileTree × Path) := do
  match env.settingsPath? with
  | none => .error (.config .noDirectory)
  | some p => return (← s.saveTo fs p, p)

end Reflow.Settings
