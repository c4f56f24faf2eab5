import Reflow.Files.Path

/-!
# Files

A file tree says what is at each place: a directory, a file with a text, or a file whose bytes are no
text.  A place is the list of names that leads to it from the root.  The operations fail for the
reasons for which a file system refuses them.
-/

namespace Reflow

/-- What can be at a place. -/
inductive Entry
  | file (content : Text)
  /-- A file whose bytes are no text. -/
  | binary (content : List UInt8)
  | directory
deriving DecidableEq, Repr

/-- Why a file system refuses an operation. -/
inductive Fault
  | notFound
  /-- Something on the way is not a directory. -/
  | notDirectory
  | isDirectory
  | alreadyThere
  | notText
deriving DecidableEq, Repr

def Fault.message : Fault → String
  | notFound => "No such file or directory (os error 2)"
  | notDirectory => "Not a directory (os error 20)"
  | isDirectory => "Is a directory (os error 21)"
  | alreadyThere => "File exists (os error 17)"
  | notText => "stream did not contain valid UTF-8"

/-- The names that lead to a place from the root. -/
abbrev Place := List Text

/-- The entries of a file system, and the directory that relative paths start from.  The root is a
directory without an entry of its own. -/
structure FileTree where
  entries : List (Place × Entry)
  /-- Where relative paths start. -/
  here : Place
deriving DecidableEq, Repr

namespace FileTree

/-! ## Places -/

def get? (fs : FileTree) (place : Place) : Option Entry :=
  if place.isEmpty then some .directory else fs.entries.lookup place

def put (fs : FileTree) (place : Place) (e : Entry) : FileTree :=
  if fs.entries.any fun x => x.1 = place then
    { fs with entries := fs.entries.map fun x => if x.1 = place then (place, e) else x }
  else { fs with entries := fs.entries ++ [(place, e)] }

/-- Follows the parts of a path from a directory; what comes before the last part has to be a
directory, and so does the last one if `needed` says so, unless it is missing. -/
def follow (fs : FileTree) (needed : Bool) : Place → List Text → Except Fault Place
  | place, [] => .ok place
  | place, step :: steps =>
    let next := if step = ['.', '.'] then place.dropLast else place ++ [step]
    if steps.isEmpty && !needed then .ok next
    else
      match fs.get? next with
      | some .directory => fs.follow needed next steps
      | some _ => .error .notDirectory
      | none => if steps.isEmpty then .ok next else .error .notFound

/-- The place that a path leads to, which may be empty. -/
def resolve (fs : FileTree) (p : Path) : Except Fault Place :=
  if p.isEmpty then .error .notFound
  else fs.follow p.endsOpen (if p.isAbsolute then [] else fs.here) p.steps

def find (fs : FileTree) (p : Path) : Except Fault Entry := do
  match fs.get? (← fs.resolve p) with
  | some e => .ok e
  | none => .error .notFound

def contains (fs : FileTree) (p : Path) : Bool :=
  (fs.find p).isOk

def isFile (fs : FileTree) (p : Path) : Bool :=
  match fs.find p with
  | .ok .directory => false
  | .ok _ => true
  | .error _ => false

def isDirectory (fs : FileTree) (p : Path) : Bool :=
  match fs.find p with
  | .ok .directory => true
  | _ => false

/-! ## Reading and writing -/

def read (fs : FileTree) (p : Path) : Except Fault Text := do
  match ← fs.find p with
  | .file t => .ok t
  | .binary _ => .error .notText
  | .directory => .error .isDirectory

/-- The tree with a text in the file at a path, which is made if it is missing. -/
def write (fs : FileTree) (p : Path) (t : Text) : Except Fault FileTree := do
  let place ← fs.resolve p
  match fs.get? place with
  | some .directory => .error .isDirectory
  | some _ => .ok (fs.put place (.file t))
  | none =>
    match fs.get? place.dropLast with
    | some .directory => if p.endsOpen then .error .isDirectory else .ok (fs.put place (.file t))
    | some _ => .error .notDirectory
    | none => .error .notFound

/-- The tree with a directory at a path whose parent is there. -/
def makeDirectory (fs : FileTree) (p : Path) : Except Fault FileTree := do
  let place ← fs.resolve p
  match fs.get? place with
  | some _ => .error .alreadyThere
  | none =>
    match fs.get? place.dropLast with
    | some .directory => .ok (fs.put place .directory)
    | some _ => .error .notDirectory
    | none => .error .notFound

/-- The tree with a directory at a path and at the parents of it, in no more steps than the bound. -/
def makeDirectoriesWithin : Nat → FileTree → Path → Except Fault FileTree
  | 0, fs, _ => .ok fs
  | n + 1, fs, p =>
    if p.isEmpty then .ok fs
    else
      let retry (fs : FileTree) (fault : Fault) : Except Fault FileTree :=
        if fs.isDirectory p then .ok fs else .error fault
      match fs.makeDirectory p with
      | .ok fs => .ok fs
      | .error .notFound =>
        match p.parent? with
        | none => .error .notFound
        | some parent => do
          let fs ← makeDirectoriesWithin n fs parent
          match fs.makeDirectory p with
          | .ok fs => .ok fs
          | .error fault => retry fs fault
      | .error fault => retry fs fault

def makeDirectories (fs : FileTree) (p : Path) : Except Fault FileTree :=
  makeDirectoriesWithin (p.length + 1) fs p

/-! ## Walking -/

/-- Whether one text comes before another or is the same, by code points. -/
def textLe : Text → Text → Bool
  | [], _ => true
  | _, [] => false
  | c :: s, d :: t => c < d || (c = d && textLe s t)

/-- Whether one place comes before another in a walk or is the same: name by name. -/
def placeLe : Place → Place → Bool
  | [], _ => true
  | _, [] => false
  | a :: p, b :: q => if a = b then placeLe p q else textLe a b

/-- The names that lead to the files below a place, each directory in the order of its names. -/
def filesBelow (fs : FileTree) (place : Place) : List Place :=
  let below := fs.entries.filterMap fun x =>
    if place.isPrefixOf x.1 && x.2 ≠ .directory then some (x.1.drop place.length) else none
  below.mergeSort placeLe

/-- The paths of the files below the directory at a path. -/
def walk (fs : FileTree) (p : Path) : List Path :=
  match fs.resolve p with
  | .ok place => (fs.filesBelow place).map fun names => p.join (Text.join '/' names)
  | .error _ => []

end FileTree

end Reflow
