import Reflow.Character.Digit
import Reflow.Character.Fold
import Reflow.Character.Word
import Reflow.Pattern.Basic

/-!
# Atoms and bracketed classes of the pattern notation

The smallest parts of a written pattern: escapes, which stand for a character, a set of characters
or a condition between two characters, and classes in brackets with ranges, nested classes and the
set operations `&&`, `--` and `~~`.  Reading gives the part and the text after it, or nothing where
the notation is broken.
-/

namespace Reflow.Pattern

/-! ## Flags -/

/-- The switches that change how a pattern is read, all off at first. -/
structure Flags where
  ignoreCase : Bool := false
  /-- The line anchors match at every line break. -/
  multiLine : Bool := false
  /-- A dot matches line breaks as well. -/
  dotAll : Bool := false
  /-- Repetitions are lazy unless marked, and greedy if marked. -/
  swapGreed : Bool := false
  /-- A carriage return ends a line, too. -/
  crlf : Bool := false
  /-- White space and comments in the pattern are skipped. -/
  spaced : Bool := false
  /-- Sets of characters hold ASCII characters only. -/
  ascii : Bool := false
deriving DecidableEq, Repr

/-- Drops white space and comments from the start of a pattern; `inComment` says that a comment has
begun, which lasts to the end of its line. -/
def dropSpacing (inComment : Bool) : Text → Text
  | [] => []
  | c :: t =>
    if inComment then dropSpacing (c ≠ '\n') t
    else if isBlank c then dropSpacing false t
    else if c = '#' then dropSpacing true t
    else c :: t

/-- Drops what does not count between two parts of a pattern. -/
def Flags.skip (flags : Flags) (t : Text) : Text :=
  if flags.spaced then dropSpacing false t else t

/-! ## Sets of characters -/

/-- The characters from one to another. -/
def between (first last c : Char) : Bool :=
  first ≤ c && c ≤ last

/-- The ASCII characters of a named class. -/
def asciiClass? (name : String) : Option (Char → Bool) :=
  match name with
  | "alnum" => some Char.isAlphanum
  | "alpha" => some Char.isAlpha
  | "ascii" => some (between '\x00' '\x7f')
  | "blank" => some fun c => c = '\t' || c = ' '
  | "cntrl" => some fun c => between '\x00' '\x1f' c || c = '\x7f'
  | "digit" => some (between '0' '9')
  | "graph" => some (between '!' '~')
  | "lower" => some (between 'a' 'z')
  | "print" => some (between ' ' '~')
  | "punct" => some fun c => between '!' '~' c && !c.isAlphanum
  | "space" => some fun c => between '\t' '\r' c || c = ' '
  | "upper" => some (between 'A' 'Z')
  | "word" => some fun c => c.isAlphanum || c = '_'
  | "xdigit" => some fun c => between '0' '9' c || between 'a' 'f' c || between 'A' 'F' c
  | _ => none

/-- The digits, blanks or word characters that a class letter stands for. -/
def Flags.classLetter? (flags : Flags) (c : Char) : Option (Char → Bool) :=
  match c with
  | 'd' => if flags.ascii then asciiClass? "digit" else some isDigit
  | 's' => if flags.ascii then asciiClass? "space" else some isBlank
  | 'w' => if flags.ascii then asciiClass? "word" else some isWord
  | 'D' => if flags.ascii then none else some fun c => !isDigit c
  | 'S' => if flags.ascii then none else some fun c => !isBlank c
  | 'W' => if flags.ascii then none else some fun c => !isWord c
  | _ => none

/-- The letters of a set in either case, if case is ignored. -/
def Flags.fold (flags : Flags) (accepts : Char → Bool) : Char → Bool :=
  if !flags.ignoreCase then accepts
  else if flags.ascii then fun c => accepts c.toLower || accepts c.toUpper
  else anyCase accepts

/-- The sets of characters with a property that has a name of its own. -/
def property? (name : String) : Option (Char → Bool) :=
  match name with
  | "any" => some fun _ => true
  | "ascii" => some (between '\x00' '\x7f')
  | "nd" | "decimalnumber" | "digit" => some isDigit
  | "whitespace" | "wspace" | "space" => some isBlank
  | _ => none

/-- The name of a property without the marks and the case that do not count in it. -/
def propertyName (t : Text) : String :=
  String.ofList ((t.filter fun c => !(isBlank c || c = '_' || c = '-')).map Char.toLower)

/-! ## Conditions between two characters -/

/-- Whether a text starts or ends here. -/
def isEdge (c : Option Char) : Bool :=
  c.isNone

def isLineStart (crlf : Bool) (before after : Option Char) : Bool :=
  match before with
  | none => true
  | some '\n' => true
  | some '\r' => crlf && after ≠ some '\n'
  | some _ => false

def isLineEnd (crlf : Bool) (before after : Option Char) : Bool :=
  match after with
  | none => true
  | some '\n' => !crlf || before ≠ some '\r'
  | some '\r' => crlf
  | some _ => false

/-- The word character test that the flags ask for. -/
def Flags.isWord (flags : Flags) (c : Option Char) : Bool :=
  c.any fun c => if flags.ascii then c.isAlphanum || c = '_' else Reflow.isWord c

/-- The condition that a word starts or ends here, by its name. -/
def Flags.wordEdge? (flags : Flags) (name : String) : Option (Option Char → Option Char → Bool) :=
  match name with
  | "start" => some fun before after => !flags.isWord before && flags.isWord after
  | "end" => some fun before after => flags.isWord before && !flags.isWord after
  | "start-half" => some fun before _ => !flags.isWord before
  | "end-half" => some fun _ after => !flags.isWord after
  | _ => none

/-! ## Escapes -/

/-- What an escape stands for. -/
inductive Atom where
  | char (c : Char)
  | set (accepts : Char → Bool)
  | look (holds : Option Char → Option Char → Bool)

def hexDigit? (c : Char) : Option Nat :=
  if between '0' '9' c then some (c.toNat - 48)
  else if between 'a' 'f' c then some (c.toNat - 87)
  else if between 'A' 'F' c then some (c.toNat - 55)
  else none

def charOfNat? (n : Nat) : Option Char :=
  if n.isValidChar then some (Char.ofNat n) else none

def hexFixed? (flags : Flags) : Nat → Nat → Text → Option (Nat × Text)
  | 0, n, t => some (n, t)
  | _ + 1, _, [] => none
  | count + 1, n, c :: t => do hexFixed? flags count (16 * n + (← hexDigit? c)) (flags.skip t)

/-- Reads hexadecimal digits up to a closing brace on from `n`, where `any` says that there has been
one. -/
def hexBraced? (flags : Flags) : Nat → Bool → Nat → Text → Option (Nat × Text)
  | 0, _, _, _ => none
  | _, _, _, [] => none
  | fuel + 1, any, n, c :: t =>
    if c = '\x7d' then if any then some (n, flags.skip t) else none
    else do hexBraced? flags fuel true (16 * n + (← hexDigit? c)) (flags.skip t)

/-- Reads the code point after the letter of a hexadecimal escape of `count` digits. -/
def hex? (flags : Flags) (count : Nat) (t : Text) : Option (Atom × Text) :=
  match flags.skip t with
  | '\x7b' :: rest => do
    let (n, rest) ← hexBraced? flags (rest.length + 1) false 0 (flags.skip rest)
    return (.char (← charOfNat? n), rest)
  | rest => do
    let (n, rest) ← hexFixed? flags count 0 rest
    if flags.ascii && count = 2 && 0x80 ≤ n then none
    else return (.char (← charOfNat? n), rest)

/-- Reads the name after the letter of a property escape. -/
def propertyEscape? (flags : Flags) (negated : Bool) (t : Text) : Option (Atom × Text) := do
  if flags.ascii then none
  let (name, rest) ← match flags.skip t with
    | [] => none
    | '\x7b' :: rest =>
      let name := rest.takeWhile (· ≠ '\x7d')
      if name.length < rest.length then some (name, rest.drop (name.length + 1)) else none
    | c :: rest => some ([c], rest)
  let (negated, name) := match name with
    | '^' :: name => (!negated, name)
    | name => (negated, name)
  let accepts := flags.fold (← property? (propertyName name))
  return (.set fun c => accepts c != negated, flags.skip rest)

/-- Reads the name of a word edge after `\b`; other braces are left for a repetition. -/
def wordEdge? (flags : Flags) (t : Text) : Option (Option (Option Char → Option Char → Bool) × Text) :=
  match t with
  | '\x7b' :: rest =>
    match flags.skip rest with
    | [] => none
    | c :: rest =>
      let inName := fun c : Char => c.isAlpha || c = '-'
      if !inName c then some (none, t)
      else
        let row := if flags.spaced then (c :: rest).filter (fun c => !isBlank c) else c :: rest
        let name := row.takeWhile inName
        match row.drop name.length with
        | '\x7d' :: rest => (flags.wordEdge? (String.ofList name)).map fun holds => (some holds, rest)
        | _ => none
  | _ => some (none, t)

def escape? (flags : Flags) : Text → Option (Atom × Text)
  | [] => none
  | c :: t =>
    match c with
    | 'x' => hex? flags 2 t
    | 'u' => hex? flags 4 t
    | 'U' => hex? flags 8 t
    | 'p' => propertyEscape? flags false t
    | 'P' => propertyEscape? flags true t
    | 'd' | 's' | 'w' | 'D' | 'S' | 'W' => (flags.classLetter? c).map fun accepts => (.set accepts, t)
    | 'a' => some (.char '\x07', t)
    | 'f' => some (.char '\x0c', t)
    | 't' => some (.char '\t', t)
    | 'n' => some (.char '\n', t)
    | 'r' => some (.char '\r', t)
    | 'v' => some (.char '\x0b', t)
    | 'A' => some (.look fun before _ => isEdge before, t)
    | 'z' => some (.look fun _ after => isEdge after, t)
    | 'b' => do
      let (edge, rest) ← wordEdge? flags t
      return (.look (edge.getD fun before after => flags.isWord before != flags.isWord after), rest)
    | 'B' => some (.look fun before after => flags.isWord before == flags.isWord after, t)
    | '<' => (flags.wordEdge? "start").map fun holds => (.look holds, t)
    | '>' => (flags.wordEdge? "end").map fun holds => (.look holds, t)
    | c => if c.toNat < 128 && !c.isAlphanum then some (.char c, t) else none

/-! ## Classes in brackets -/

/-- How two sets are put together. -/
inductive SetOp
  | intersection
  | difference
  | symmetricDifference

def SetOp.apply (op : SetOp) (left right : Char → Bool) (c : Char) : Bool :=
  match op with
  | intersection => left c && right c
  | difference => left c && !right c
  | symmetricDifference => left c != right c

/-- Reads a named class such as `[:alpha:]`, after its first bracket. -/
def namedClass? (flags : Flags) : Text → Option ((Char → Bool) × Text)
  | ':' :: t => do
    let (negated, t) := match t with
      | '^' :: t => (true, t)
      | t => (false, t)
    let name := t.takeWhile (· ≠ ':')
    let accepts ← asciiClass? (String.ofList name)
    let rest ← Text.after? [':', ']'] (t.drop name.length)
    if negated && flags.ascii then none else some (fun c => accepts c != negated, rest)
  | _ => none

/-- Reads one end of a range, or a member of a class. -/
def member? (flags : Flags) : Text → Option (Atom × Text)
  | [] => none
  | '\\' :: t => escape? flags t
  | c :: t => some (.char c, t)

/-- The set with one character, which has to be an ASCII character if sets hold no others. -/
def Flags.single? (flags : Flags) (c : Char) : Option (Char → Bool) :=
  if flags.ascii && 128 ≤ c.toNat then none else some (· = c)

/-- Reads a member of a class or a range of characters. -/
def range? (flags : Flags) (t : Text) : Option ((Char → Bool) × Text) := do
  let (first, t) ← member? flags t
  let whole (t : Text) : Option ((Char → Bool) × Text) :=
    match first with
    | .char c => (flags.single? c).map fun accepts => (accepts, t)
    | .set accepts => some (accepts, t)
    | .look _ => none
  match flags.skip t with
  | [] => none
  | '-' :: rest =>
    match flags.skip rest with
    | [] => none
    | ']' :: _ => whole ('-' :: rest)
    | '-' :: _ => whole ('-' :: rest)
    | rest =>
      let (last, rest) ← member? flags rest
      match first, last with
      | .char first, .char last =>
        if flags.ascii && 128 ≤ last.toNat then none
        else if first ≤ last then some (between first last, rest) else none
      | _, _ => none
  | t => whole t

/-- Reads the dashes at the start of a class, which stand for themselves; `any` says that there has
been one. -/
def dashes (flags : Flags) : Nat → Bool → Text → Bool × Text
  | 0, any, t => (any, t)
  | fuel + 1, any, t =>
    match t with
    | '-' :: rest => dashes flags fuel true (flags.skip rest)
    | t => (any, t)

mutual

/-- Reads a class after its opening bracket. -/
def class? (flags : Flags) : Nat → Text → Option ((Char → Bool) × Text)
  | 0, _ => none
  | fuel + 1, t => do
    let t := flags.skip t
    let (negated, t) := match t with
      | '^' :: rest => (true, flags.skip rest)
      | t => (false, t)
    let (dash, t) := dashes flags t.length false t
    let (bracket, t) := match dash, t with
      | false, ']' :: rest => (true, flags.skip rest)
      | _, t => (false, t)
    if negated && flags.ascii then none
    let marks (c : Char) : Bool := (dash && c = '-') || (bracket && c = ']')
    let (accepts, rest) ← classItems? flags fuel marks none t
    let accepts := flags.fold accepts
    return (fun c => accepts c != negated, rest)

/-- Reads the members of a class up to its closing bracket, where `accepts` holds the members since
the last operator, and `left` is that operator and the set before it. -/
def classItems? (flags : Flags) : Nat → (Char → Bool) → Option (SetOp × (Char → Bool)) → Text →
    Option ((Char → Bool) × Text)
  | 0, _, _, _ => none
  | fuel + 1, accepts, left, t => do
    let whole := match left with
      | none => accepts
      | some (op, left) => op.apply (flags.fold left) (flags.fold accepts)
    let add (p : (Char → Bool) × Text) := classItems? flags fuel (fun c => accepts c || p.1 c) left p.2
    match flags.skip t with
    | [] => none
    | ']' :: rest => some (whole, rest)
    | '&' :: '&' :: rest => classItems? flags fuel (fun _ => false) (some (.intersection, whole)) rest
    | '-' :: '-' :: rest => classItems? flags fuel (fun _ => false) (some (.difference, whole)) rest
    | '~' :: '~' :: rest =>
      classItems? flags fuel (fun _ => false) (some (.symmetricDifference, whole)) rest
    | '[' :: rest =>
      match namedClass? flags rest with
      | some found => add found
      | none => add (← class? flags fuel rest)
    | t => add (← range? flags t)

end

end Reflow.Pattern
