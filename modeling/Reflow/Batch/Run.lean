import Reflow.Batch.Wrap
import Reflow.Files.Access

/-!
# Wrapping files

Paths are expanded into files, and each file is wrapped on its own.  All files are read before one of
them is written, so a file that is given twice is wrapped twice in the same way.
-/

namespace Reflow

/-- What came of a file that was wrapped. -/
structure FileReport where
  path : Path
  /-- Whether wrapping changes it. -/
  changed : Bool
  output : Text
deriving DecidableEq, Repr

structure BatchReport where
  /-- The files that were wrapped, in the order in which they were given. -/
  files : List FileReport
  /-- The errors of the files that failed, in the order in which they were given. -/
  failures : List Error
deriving DecidableEq, Repr

namespace Batch

/-! ## Finding files -/

/-- Whether a path is that of a file of one of the types, which may be written with a dot. -/
def hasExtension (extensions : List Text) (p : Path) : Bool :=
  extensions.isEmpty || p.extension?.any fun ext =>
    extensions.any fun wanted => sameIgnoringCase (wanted.dropWhile (· = '.')) ext

/-- The files that some paths stand for.  A file stands for itself, and a directory for the files of
the given types below it. -/
def collect (fs : FileTree) (extensions : List Text) : List Path → Except Error (List Path)
  | [] => .ok []
  | p :: paths => do
    let found ←
      if fs.isFile p then .ok [p]
      else if fs.isDirectory p then .ok ((fs.walk p).filter (hasExtension extensions))
      else .error (.noSuchPath p)
    return found ++ (← collect fs extensions paths)

/-! ## Wrapping them -/

/-- Wraps one file as it is in the tree. -/
def wrapFile (s : Settings) (o : BatchOptions) (fs : FileTree) (p : Path) :
    Except Error FileReport := do
  let given ← fs.readText p
  let output ← wrapText s o (some p) given
  return ⟨p, decide (output ≠ given), output⟩

/-- The tree with a file that wrapping changes written, where files are to be written. -/
def store (o : BatchOptions) (fs : FileTree) (r : FileReport) : Except Error FileTree :=
  if r.changed && o.mode = .write then fs.writeText r.path r.output else .ok fs

/-- Stores what came of some files one after the other: what came of that, and the tree afterwards,
which a failure leaves as it was. -/
def storeAll (o : BatchOptions) :
    FileTree → List (Except Error FileReport) → List (Except Error FileReport) × FileTree
  | fs, [] => ([], fs)
  | fs, result :: results =>
    match result.bind fun r => (store o fs r).map fun fs => (r, fs) with
    | .ok (r, fs) =>
      let (results, fs) := storeAll o fs results
      (.ok r :: results, fs)
    | .error e =>
      let (results, fs) := storeAll o fs results
      (.error e :: results, fs)

def report (results : List (Except Error FileReport)) : BatchReport where
  files := results.filterMap fun
    | .ok file => some file
    | .error _ => none
  failures := results.filterMap fun
    | .ok _ => none
    | .error e => some e

/-- Wraps some files: the report on them, and the tree afterwards. -/
def run (s : Settings) (o : BatchOptions) (fs : FileTree) (paths : List Path) :
    BatchReport × FileTree :=
  let (results, fs) := storeAll o fs (paths.map (wrapFile s o fs))
  (report results, fs)

end Batch

def BatchReport.changed (r : BatchReport) : List FileReport :=
  r.files.filter fun file => file.changed

end Reflow
