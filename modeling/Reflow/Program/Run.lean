import Reflow.Batch.Run
import Reflow.Editor.Session
import Reflow.Program.Request
import Reflow.Settings.Store

/-!
# Running the program

What the program writes, what it complains about and how it ends, for a request, its input, the files
and the environment.
-/

namespace Reflow

structure Outcome where
  status : Nat := 0
  output : Text := []
  complaint : Text := []
  files : FileTree
deriving DecidableEq, Repr

namespace Program

def name : String := "colwrap"

def version : String := "0.1.0"

def usage : String :=
  String.intercalate "\n"
    ["Reflow comments and prose to a column width",
      "",
      "Usage: colwrap [OPTIONS] [PATHS]...",
      "       colwrap edit [OPTIONS] <FILE>",
      "       colwrap settings [OPTIONS]",
      "",
      "Options:",
      "  -w, --width <WIDTH>                Column width",
      "      --tab-width <TAB_WIDTH>        Columns per tab character",
      "      --minimum-raggedness           Balance line lengths instead of filling greedily",
      "      --plaintext                    Treat input as prose regardless of extension",
      "      --check                        Report files that would change and exit 1 if any do",
      "  -i, --in-place                     Write files back instead of printing them",
      "      --ext <EXTENSIONS>             Extensions to pick up when walking directories",
      "      --lines <START:END>            Only wrap lines START:END (1-based, inclusive)",
      "      --paragraph-at <LINE>          Only wrap the paragraph around this line (1-based)",
      "      --save                         Persist the settings (with settings only)",
      "  -h, --help                         Print help",
      "  -V, --version                      Print version",
      ""]

/-- A line that starts with the name of the program. -/
def complaintLine (message : String) : Text :=
  (name ++ ": " ++ message ++ "\n").toList

def failed (fs : FileTree) (message : String) (output : Text) : Outcome :=
  { status := 2, output, complaint := complaintLine message, files := fs }

/-- What comes of the computation of an outcome that may fail. -/
def orFailed (fs : FileTree) (r : Except String Outcome) : Outcome :=
  match r with
  | .ok outcome => outcome
  | .error message => failed fs message []

def loadSettings (fs : FileTree) (env : Environment) (o : Overrides) : Except String Settings :=
  match Settings.load fs env with
  | .ok s => .ok (o.apply s)
  | .error e => .error ("loading settings: " ++ e.chain)

/-! ## Wrapping -/

def skippedMessage : Error → String
  | .noSuchPath p => "skipped " ++ String.ofList p ++ ": " ++ Error.missingMessage
  | .file action p _ => "skipped " ++ String.ofList p ++ ": " ++ Error.fileMessage action p
  | .range (some p) problem => "skipped " ++ String.ofList p ++ ": " ++ problem.message
  | e => e.message

def fileOutput (mode : BatchMode) (r : FileReport) : Text :=
  match mode with
  | .print => r.output
  | .check => if r.changed then "would wrap ".toList ++ r.path ++ ['\n'] else []
  | .write => if r.changed then "wrapped ".toList ++ r.path ++ ['\n'] else []

def batchOutcome (mode : BatchMode) (r : BatchReport) (fs : FileTree) : Outcome where
  status := if (mode = .check && !r.changed.isEmpty) || !r.failures.isEmpty then 1 else 0
  output := r.files.flatMap (fileOutput mode)
  complaint := r.failures.flatMap fun e => complaintLine (skippedMessage e)
  files := fs

/-- Wraps the input, which is none if it is no text. -/
def wrapInput (fs : FileTree) (s : Settings) (o : BatchOptions) (input : Option Text) :
    Except String Outcome := do
  let t ← match input with
    | some t => .ok t
    | none => .error ("reading stdin: " ++ Fault.notText.message)
  let output ← (Batch.wrapText s o none t).mapError Error.chain
  if o.mode = .check then return { status := if output = t then 0 else 1, files := fs }
  else return { output, files := fs }

def runWrap (fs : FileTree) (env : Environment) (input : Option Text) (r : WrapRequest) :
    Except String Outcome := do
  let s ← loadSettings fs env r.overrides
  let o ← r.options.mapError Error.chain
  if r.paths.isEmpty then wrapInput fs s o input
  else
    let paths ← (Batch.collect fs o.extensions r.paths).mapError Error.chain
    let (report, fs) := Batch.run s o fs paths
    return batchOutcome o.mode report fs

/-! ## Settings and editing -/

def runSettings (fs : FileTree) (env : Environment) (save : Bool) (o : Overrides) :
    Except String Outcome := do
  let s ← loadSettings fs env o
  let output := s.print ++ ['\n']
  if save then
    match s.save fs (DotEnv.apply fs env) with
    | .ok (fs, p) =>
      return { output, complaint := "Saved settings to ".toList ++ p ++ ['\n'], files := fs }
    | .error e => return failed fs e.chain output
  else return { output, files := fs }

def openSession (fs : FileTree) (env : Environment) (file : Path) (o : Overrides) :
    Except String Session := do
  let s ← loadSettings fs env o
  (Session.ofFile fs file s).mapError Error.chain

def runEdit (fs : FileTree) (env : Environment) (file : Path) (o : Overrides) :
    Except String Outcome := do
  let _ ← openSession fs env file o
  return failed fs "No such device or address (os error 6)" []

/-! ## All requests -/

def run (fs : FileTree) (env : Environment) (input : Option Text) : Request → Outcome
  | .wrap r => orFailed fs (runWrap fs env input r)
  | .edit file o => orFailed fs (runEdit fs env file o)
  | .settings save o => orFailed fs (runSettings fs env save o)
  | .version => { output := (name ++ " " ++ version ++ "\n").toList, files := fs }
  | .help => { output := usage.toList, files := fs }

end Program

end Reflow
