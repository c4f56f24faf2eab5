import Reflow.Files.Tree
import Reflow.Text.Quoted

/-!
# Errors

What can go wrong, by its cause, and the message for each cause.
-/

namespace Reflow

/-- What was being done to a file when it failed. -/
inductive FileAction
  | openFile
  | readFile
  /-- Making a file, or emptying it to write to it. -/
  | createFile
  | createDirectory
deriving DecidableEq, Repr

def FileAction.message : FileAction → String
  | openFile => "failed to open file"
  | readFile => "failed to read from file"
  | createFile => "failed to create file"
  | createDirectory => "failed to create directory"

/-- What is wrong with a part of the configuration. -/
inductive ConfigProblem
  /-- There is no file to save the text in. -/
  | noFileName
  /-- There is no place to keep the settings in. -/
  | noDirectory
deriving DecidableEq, Repr

def ConfigProblem.message : ConfigProblem → String
  | noFileName => "No file name. Start the editor with a file path to save"
  | noDirectory =>
    "No config directory available. Set COLWRAP_SETTINGS to a writable file path"

/-- What is wrong with a range of lines. -/
inductive RangeProblem
  /-- The line, from one, is past the end of the text. -/
  | pastEnd (line count : Nat)
  /-- The text is not a range. -/
  | malformed (range : Text)
  | zeroLine
deriving DecidableEq, Repr

def RangeProblem.message : RangeProblem → String
  | pastEnd line count => s!"line {line} is past the end ({count} lines)"
  | malformed range => "expected START:END, got " ++ String.ofList (Quoted.encode false range)
  | zeroLine => "--paragraph-at is 1-based"

/-- What can go wrong. -/
inductive Error
  | noSuchPath (path : Path)
  | file (action : FileAction) (path : Path) (fault : Fault)
  /-- A part of the configuration is missing. -/
  | config (problem : ConfigProblem)
  /-- A range of lines does not fit the text of a file, or of the input. -/
  | range (path : Option Path) (problem : RangeProblem)
  /-- The comment leader is not a pattern. -/
  | pattern
  /-- The settings file does not hold settings. -/
  | settings
  | clipboard
deriving DecidableEq, Repr

namespace Error

def path? : Error → Option Path
  | noSuchPath path => some path
  | file _ path _ => some path
  | range path _ => path
  | _ => none

/-- A path in quotes, or the word for none. -/
def quotedPath : Option Path → String
  | none => "None"
  | some path => "Some(" ++ String.ofList (Quoted.encode true path) ++ ")"

/-- What failed to happen to a file, without the reason. -/
def fileMessage (action : FileAction) (path : Path) : String :=
  action.message ++ " `" ++ String.ofList path ++ "`"

def missingMessage : String :=
  "no such file or directory"

/-- The message of an error.  What exactly is wrong with a pattern or with settings is not told. -/
def message : Error → String
  | noSuchPath path => "IO error at " ++ quotedPath path ++ ": " ++ missingMessage
  | file action path _ => "IO error at " ++ quotedPath path ++ ": " ++ fileMessage action path
  | config problem => "Configuration error: " ++ problem.message
  | range path problem => "Parse error in " ++ quotedPath path ++ ": " ++ problem.message
  | pattern => "Invalid comment pattern"
  | settings => "Settings error"
  | clipboard => "Clipboard error: no display"

/-- The messages of the causes of an error, the nearest one first. -/
def causes : Error → List String
  | noSuchPath _ => [missingMessage]
  | file action path fault => [fileMessage action path, fault.message]
  | _ => []

def chain (e : Error) : String :=
  String.intercalate ": " (e.message :: e.causes)

end Error

end Reflow
