import Reflow.Pattern.CharClass
import Reflow.Text.Numeral

/-!
# Reading patterns

The notation of patterns: characters, dots, anchors, escapes, classes, groups with or without a name
or flags, alternatives and repetitions.  `Pattern.read?` gives the pattern that a text describes, or
nothing if the text is not a pattern.
-/

namespace Reflow.Pattern

/-! ## Size -/

def size : Pattern → Nat
  | empty => 1
  | one _ => 1
  | look _ => 1
  | seq p q => p.size + q.size + 1
  | alt p q => p.size + q.size + 1
  | repeated _ p => p.size + 1

/-- The greatest number of parts that a repetition may have once it is written out. -/
def sizeBound : Nat := 200000

/-! ## Flags in a pattern -/

/-- The flags with the one of the given letter set to a value. -/
def Flags.set? (flags : Flags) (letter : Char) (value : Bool) : Option Flags :=
  match letter with
  | 'i' => some { flags with ignoreCase := value }
  | 'm' => some { flags with multiLine := value }
  | 's' => some { flags with dotAll := value }
  | 'U' => some { flags with swapGreed := value }
  | 'R' => some { flags with crlf := value }
  | 'x' => some { flags with spaced := value }
  | 'u' => some { flags with ascii := !value }
  | _ => none

/-- Reads flag letters up to a closing parenthesis or a colon, which is given back as well.  No
letter may stand twice, and a minus sign, which turns off what follows, needs a letter after it. -/
def flagLetters? : Flags → List Char → Text → Option (Flags × List Char × Char × Text)
  | _, _, [] => none
  | flags, seen, c :: t =>
    if c = ')' || c = ':' then
      if seen.head? = some '-' then none else some (flags, seen, c, t)
    else if seen.contains c then none
    else if c = '-' then flagLetters? flags (c :: seen) t
    else do flagLetters? (← flags.set? c (!seen.contains '-')) (c :: seen) t

def groupName? (t : Text) : Option (Text × Text) :=
  let name := t.takeWhile (· ≠ '>')
  let isLetter := fun c : Char => isWord c && !isDigit c
  let first := fun c : Char => c = '_' || isLetter c
  let later := fun c : Char => c = '_' || c = '.' || c = '[' || c = ']' || isWord c
  match name, t.drop name.length with
  | c :: cs, '>' :: rest => if first c && cs.all later then some (name, rest) else none
  | _, _ => none

/-! ## Repetitions -/

def count? (flags : Flags) : Nat → Option Nat → Text → Option Nat × Text
  | 0, n, t => (n, t)
  | _, n, [] => (n, [])
  | fuel + 1, n, c :: t =>
    match Numeral.digit? c with
    | some d => count? flags fuel (some (10 * n.getD 0 + d)) (flags.skip t)
    | none => (n, (c :: t).dropWhile isBlank)

/-- Reads the bounds of a repetition after the opening brace. -/
def bounds? (flags : Flags) (t : Text) : Option (Nat × Option Nat × Text) := do
  let number (t : Text) : Option Nat × Text :=
    let t := t.dropWhile isBlank
    count? flags (t.length + 1) none t
  let (least, rest) := number (flags.skip t)
  let (least, most, rest) ← match rest with
    | ',' :: rest =>
      match flags.skip rest with
      | '\x7d' :: rest => some (← least, none, rest)
      | rest =>
        match number rest with
        | (some most, '\x7d' :: rest) => some (← least, some most, rest)
        | _ => none
    | '\x7d' :: rest => some (← least, least, rest)
    | _ => none
  if Nat.pow 2 32 ≤ max least (most.getD 0) || most.any (· < least) then none
  else some (least, most, rest)

/-- A pattern repeated at least and at most so many times. -/
def between? (greedy : Bool) (least : Nat) (most : Option Nat) (p : Pattern) : Option Pattern :=
  if sizeBound < max least (most.getD 0) * p.size then none
  else
    match most with
    | some most =>
      if most = least then some (times least p)
      else if least = 0 then some (upTo greedy most p)
      else some (seq (times least p) (upTo greedy (most - least) p))
    | none =>
      match least with
      | 0 => some (zeroOrMore greedy p)
      | 1 => some (oneOrMore greedy p)
      | least + 1 => some (seq (times least p) (oneOrMore greedy p))

/-! ## Groups -/

/-- What has been read of a group: its finished alternatives and the parts of the current one, the
last ones first.  A part may be a change of flags, which cannot be repeated. -/
structure Group where
  flags : Flags
  /-- The finished alternatives, the last one first. -/
  branches : List Pattern
  /-- The parts of the current alternative, the last one first. -/
  parts : List (Option Pattern)

namespace Group

def start (flags : Flags) : Group := ⟨flags, [], []⟩

def push (g : Group) (p : Pattern) : Group :=
  { g with parts := some p :: g.parts }

/-- The current alternative. -/
def branch (g : Group) : Pattern :=
  row (g.parts.reverse.filterMap id)

/-- The pattern of the whole group. -/
def close (g : Group) : Pattern :=
  choice (g.branch :: g.branches).reverse

/-- The group with its last part changed. -/
def repeatLast? (g : Group) (change : Pattern → Option Pattern) : Option Group :=
  match g.parts with
  | some p :: parts => do return { g with parts := some (← change p) :: parts }
  | _ => none

end Group

/-- A pattern that has been read in part: the current group, the groups around it, the innermost
first, and the names of groups so far. -/
structure Reading where
  current : Group
  around : List Group
  names : List Text

namespace Reading

def openGroup? (r : Reading) (t : Text) : Option (Reading × Text) := do
  let flags := r.current.flags
  let enter (flags : Flags) (names : List Text) : Reading :=
    ⟨Group.start flags, r.current :: r.around, names⟩
  let named (t : Text) : Option (Reading × Text) := do
    let (name, rest) ← groupName? t
    if r.names.contains name then none else some (enter flags (name :: r.names), rest)
  match flags.skip t with
  | '?' :: 'P' :: '<' :: rest => named rest
  | '?' :: '<' :: rest => if rest.head?.any (fun c => c = '=' || c = '!') then none else named rest
  | '?' :: rest =>
    let (flags, seen, mark, rest) ← flagLetters? flags [] rest
    if mark = ':' then some (enter flags r.names, rest)
    else if seen.isEmpty then none
    else
      some ({ r with current := { r.current with flags, parts := none :: r.current.parts } }, rest)
  | rest => some (enter flags r.names, rest)

def closeGroup? (r : Reading) : Option Reading :=
  match r.around with
  | [] => none
  | outer :: around => some { r with current := outer.push r.current.close, around }

/-- Reads the mark of laziness after a repetition, and tells whether the repetition is greedy. -/
def greedy (r : Reading) (t : Text) : Bool × Text :=
  match t with
  | '?' :: rest => (r.current.flags.swapGreed, rest)
  | t => (!r.current.flags.swapGreed, t)

def repeat? (r : Reading) (t : Text) (least : Nat) (most : Option Nat) : Option (Reading × Text) := do
  let (greedy, rest) := r.greedy t
  let current ← r.current.repeatLast? (between? greedy least most)
  return ({ r with current }, rest)

def push (r : Reading) (a : Atom) : Reading :=
  let p := match a with
    | .char c => one (r.current.flags.fold (· = c))
    | .set accepts => one accepts
    | .look holds => look holds
  { r with current := r.current.push p }

/-- Reads one more piece of a pattern, which is not empty. -/
def step? (r : Reading) : Text → Option (Reading × Text)
  | [] => none
  | c :: t =>
    let flags := r.current.flags
    match c with
    | '(' => r.openGroup? t
    | ')' => r.closeGroup?.map fun r => (r, t)
    | '|' =>
      let branches := r.current.branch :: r.current.branches
      some ({ r with current := { r.current with branches, parts := [] } }, t)
    | '[' => (class? flags (2 * t.length + 2) t).map fun found => (r.push (.set found.1), found.2)
    | '?' => r.repeat? t 0 (some 1)
    | '*' => r.repeat? t 0 none
    | '+' => r.repeat? t 1 none
    | '\x7b' => do
      if r.current.parts.head?.join.isNone then none
      let (least, most, rest) ← bounds? flags t
      r.repeat? (flags.skip rest) least most
    | '\\' => (escape? flags t).map fun found => (r.push found.1, found.2)
    | '.' =>
      if flags.ascii then none
      else some (r.push (.set fun c =>
        flags.dotAll || !(c = '\n' || (flags.crlf && c = '\r'))), t)
    | '^' =>
      some (r.push (.look fun before after =>
        if flags.multiLine then isLineStart flags.crlf before after else isEdge before), t)
    | '$' =>
      some (r.push (.look fun before after =>
        if flags.multiLine then isLineEnd flags.crlf before after else isEdge after), t)
    | c => some (r.push (.char c), t)

/-- Reads the rest of a pattern, in no more steps than the bound. -/
def finish? : Nat → Reading → Text → Option Pattern
  | 0, _, _ => none
  | fuel + 1, r, t =>
    match r.current.flags.skip t with
    | [] => if r.around.isEmpty then some r.current.close else none
    | t => do
      let (r, rest) ← r.step? t
      finish? fuel r rest

end Reading

def read? (t : Text) : Option Pattern :=
  Reading.finish? (t.length + 1) ⟨Group.start {}, [], []⟩ t

end Reflow.Pattern
