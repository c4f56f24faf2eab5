import Reflow.Json
import Reflow.Settings.Basic

/-!
# The written form of settings

Settings are kept as a JSON object with one member for each of them.  Members that are missing have
their usual values and members with other names do not count.  A list of values in the same order is
read, too.
-/

namespace Reflow.Settings

/-! ## Printing -/

def printNumber (n : Nat) : Text :=
  digitsOf 10 n

/-- The settings as a JSON object, with a line for each member. -/
def print (s : Settings) : Text :=
  let width := (s.width.map printNumber).getD "null".toList
  let ragged := if s.ragged then "true".toList else "false".toList
  "\x7b\n  \"column_width_override\": ".toList ++ width ++
    ",\n  \"use_minimum_raggedness\": ".toList ++ ragged ++
    ",\n  \"plaintext_file_types\": ".toList ++ Json.printString s.proseTypes ++
    ",\n  \"tab_width\": ".toList ++ printNumber s.tabWidth ++ "\n\x7d".toList

/-! ## Reading -/

/-- A whole number below `2 ^ 64`. -/
def number? : Json → Option Nat
  | .natural n => if n < wordBound then some n else none
  | _ => none

def setWidth? (s : Settings) : Json → Option Settings
  | .null => some { s with width := none }
  | v => (number? v).map fun n => { s with width := some n }

def setRagged? (s : Settings) : Json → Option Settings
  | .bool b => some { s with ragged := b }
  | _ => none

def setProseTypes? (s : Settings) : Json → Option Settings
  | .string (some t) => some { s with proseTypes := t }
  | _ => none

def setTabWidth? (s : Settings) (v : Json) : Option Settings :=
  (number? v).map fun n => { s with tabWidth := n }

/-- The ways of setting a value, in the order of a list of settings. -/
def setters : List (Settings → Json → Option Settings) :=
  [setWidth?, setRagged?, setProseTypes?, setTabWidth?]

/-- The place of a name in the order of a list of settings. -/
def position? (name : Text) : Option Nat :=
  ["column_width_override", "use_minimum_raggedness", "plaintext_file_types", "tab_width"].findIdx?
    fun known => known.toList = name

/-- The settings with the members of an object, none of which may be set twice; `seen` are the places
of those that have been set. -/
def ofMembers? : Settings → List Nat → List (Option Text × Json) → Option Settings
  | s, _, [] => some s
  | s, seen, (name, value) :: members => do
    match position? (← name) with
    | none => ofMembers? s seen members
    | some n =>
      if seen.contains n then none
      else
        match setters[n]? with
        | none => none
        | some set => do ofMembers? (← set s value) (n :: seen) members

/-- The settings with the values of a list, which has no more of them than there are settings. -/
def ofItems? : Settings → List (Settings → Json → Option Settings) → List Json → Option Settings
  | s, _, [] => some s
  | _, [], _ :: _ => none
  | s, set :: sets, item :: items => do ofItems? (← set s item) sets items

/-- The settings that a text holds. -/
def read? (t : Text) : Option Settings := do
  match ← Json.read? t with
  | .object members => ofMembers? {} [] members
  | .array items => ofItems? {} setters items
  | _ => none

end Reflow.Settings
