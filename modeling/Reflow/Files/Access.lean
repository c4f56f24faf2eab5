import Reflow.Error

/-!
# Access to files

The operations on a file tree with the error that each fault leads to.
-/

namespace Reflow.FileTree

/-- What was being done to a file when reading it hit a fault. -/
def readAction : Fault → FileAction
  | .isDirectory | .notText => .readFile
  | _ => .openFile

def readText (fs : FileTree) (p : Path) : Except Error Text :=
  (fs.read p).mapError fun fault => .file (readAction fault) p fault

def writeText (fs : FileTree) (p : Path) (t : Text) : Except Error FileTree :=
  (fs.write p t).mapError fun fault => .file .createFile p fault

/-- The tree with a directory at a path and at the parents of it. -/
def ensureDirectory (fs : FileTree) (p : Path) : Except Error FileTree :=
  (fs.makeDirectories p).mapError fun fault => .file .createDirectory p fault

end Reflow.FileTree
