import Reflow.Text.Basic

/-!
# Paths

A path is a text whose parts stand between slashes.  Empty parts and dots do not count, except for a
slash or a dot at the start.
-/

namespace Reflow

/-- The place of a file, written with slashes. -/
abbrev Path := Text

namespace Path

def parts (p : Path) : List Text :=
  Text.splitOn '/' p

def isAbsolute (p : Path) : Bool :=
  p.head? = some '/'

/-- Whether a part of a path leads somewhere. -/
def isStep (part : Text) : Bool :=
  !part.isEmpty && part ≠ ['.']

/-- The parts of a path that lead somewhere. -/
def steps (p : Path) : List Text :=
  p.parts.filter isStep

/-- Whether a path can only name a directory, as it ends in a slash or a dot. -/
def endsOpen (p : Path) : Bool :=
  !p.isEmpty && !(p.parts.getLast?.any isStep)

def join (p q : Path) : Path :=
  if q.isAbsolute || p.isEmpty then q
  else if p.getLast? = some '/' then p ++ q
  else p ++ '/' :: q

/-- The name of a file: the last part of its path, unless that leads upwards. -/
def fileName? (p : Path) : Option Text :=
  (steps p).getLast?.filter fun name => name ≠ ['.', '.']

/-- What comes after the last dot of a file name; a dot at its start does not count. -/
def extension? (p : Path) : Option Text := do
  let name ← fileName? p
  match (Text.splitOn '.' name).reverse with
  | [] => none
  | ext :: before => if (before.all List.isEmpty && before.length ≤ 1) then none else some ext

/-- The path without what does not count at its end. -/
def dropEmptyEnd (p : Path) : Path :=
  go p.length p
where
  /-- Drops slashes and dots in no more steps than the bound. -/
  go : Nat → Path → Path
  | 0, p => p
  | n + 1, p =>
    match p.reverse with
    | '/' :: rest => if rest.isEmpty then p else go n rest.reverse
    | '.' :: '/' :: rest => go n ('/' :: rest).reverse
    | _ => p

/-- The path of the directory that a path is in.  The root and the empty path are in none. -/
def parent? (p : Path) : Option Path :=
  let q := dropEmptyEnd p
  if q.isEmpty || q = ['/'] then none
  else some (dropEmptyEnd (Text.dropEndWhile (· ≠ '/') q))

end Path

end Reflow
