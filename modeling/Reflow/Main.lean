import Reflow.Program.Run

/-!
# The program

Looks at the files and the variables that a run can depend on, runs the program on what it has seen,
and brings the files to the state that comes of it.
-/

namespace Reflow.Main

/-! ## Looking at files -/

/-- What some bytes are as a file. -/
def entryOfBytes (bytes : ByteArray) : Entry :=
  match String.fromUTF8? bytes with
  | some s => .file s.toList
  | none => .binary bytes.toList

/-- The written form of a place. -/
def written (place : Place) : String :=
  String.ofList ('/' :: Text.join '/' place)

/-- What is at a place outside, if anything is. -/
def lookAt (place : Place) : IO (Option Entry) := do
  let path := (← IO.currentDir) / written place
  if ← path.isDir then return some .directory
  if ← path.pathExists then return some (entryOfBytes (← IO.FS.readBinFile path))
  return none

def see (fs : FileTree) (place : Place) : IO FileTree := do
  match ← lookAt place with
  | some e => return fs.put place e
  | none => return fs

/-- Adds what is along a path outside. -/
def seeAlong (fs : FileTree) (p : Path) : IO FileTree := do
  let step (state : FileTree × Place) (name : Text) : IO (FileTree × Place) := do
    let place := if name = ['.', '.'] then state.2.dropLast else state.2 ++ [name]
    return (← see state.1 place, place)
  return (← p.steps.foldlM step (fs, if p.isAbsolute then [] else fs.here)).1

/-- Adds what is at a place and below it outside. -/
partial def seeBelow (fs : FileTree) (place : Place) : IO FileTree := do
  let fs ← see fs place
  if fs.get? place ≠ some .directory then return fs
  let entries ← ((← IO.currentDir) / written place).readDir
  entries.foldlM (fun fs e => seeBelow fs (place ++ [e.fileName.toList])) fs

/-- Adds what is at a path and below it outside. -/
def seePath (fs : FileTree) (p : Path) : IO FileTree := do
  let fs ← seeAlong fs p
  match fs.resolve p with
  | .ok place => seeBelow fs place
  | .error _ => return fs

/-! ## The environment -/

/-- The variables that the program looks at in any case. -/
def knownVariables : List String :=
  ["HOME", "XDG_CONFIG_HOME", "COLWRAP_SETTINGS", "COLWRAP_WIDTH", "COLWRAP_TAB_WIDTH",
    "COLWRAP_MINIMUM_RAGGEDNESS", "COLWRAP_PLAINTEXT_TYPES"]

/-- The names of variables that a text may refer to. -/
def namesIn (t : Text) : List String :=
  (Text.fields (fun c => !DotEnv.isNameChar c && c ≠ '_') t).map String.ofList

def environment (names : List String) : IO Environment :=
  names.filterMapM fun name => do
    return (← IO.getEnv name).map fun value => (name.toList, value.toList)

/-! ## Running -/

/-- All bytes of a stream after those that have been read. -/
partial def readRest (stream : IO.FS.Stream) (read : ByteArray) : IO ByteArray := do
  let bytes ← stream.read 65536
  if bytes.isEmpty then return read
  readRest stream (read ++ bytes)

def readInput : IO (Option Text) := do
  let bytes ← readRest (← IO.getStdin) .empty
  return (String.fromUTF8? bytes).map String.toList

def pathsOf : Request → List Path
  | .wrap r => r.paths
  | .edit file _ => [file]
  | _ => []

def takesInput : Request → Bool
  | .wrap r => r.paths.isEmpty
  | _ => false

/-- Brings a place outside to the state of an entry. -/
def store (place : Place) (e : Entry) : IO Unit := do
  let path := (← IO.currentDir) / written place
  match e with
  | .directory => IO.FS.createDirAll path
  | .file t => IO.FS.writeFile path (String.ofList t)
  | .binary bytes => IO.FS.writeBinFile path ⟨bytes.toArray⟩

def runRequest (request : Request) : IO UInt32 := do
  let here := Path.steps (← IO.currentDir).toString.toList
  let folders := (List.range (here.length + 1)).map fun n => here.take n
  let fs ← folders.foldlM see ⟨[], here⟩
  let fs ← folders.foldlM (fun fs place => see fs (place ++ [".env".toList])) fs
  let named :=
    match DotEnv.find? fs (here.length + 1) here with
    | some (.file t) => namesIn t
    | _ => []
  let env ← environment (knownVariables ++ named)
  let settings := ((DotEnv.apply fs env).settingsPath?).toList
  let fs ← settings.foldlM seeAlong fs
  let fs ← (pathsOf request).foldlM seePath fs
  let input ← if takesInput request then readInput else pure none
  let outcome := Program.run fs env input request
  for (place, e) in outcome.files.entries do
    if fs.get? place ≠ some e then store place e
  IO.print (String.ofList outcome.output)
  IO.eprint (String.ofList outcome.complaint)
  return UInt32.ofNat outcome.status

end Reflow.Main

def main (args : List String) : IO UInt32 := do
  match Reflow.Request.read? (args.map String.toList) with
  | some request => Reflow.Main.runRequest request
  | none =>
    IO.eprintln Reflow.Program.usage
    return 2
