import Reflow.Text.Numeral
import Reflow.Text.Quoted

/-!
# JSON

Values of the data format JSON, a reader of them and a printer of its strings.  A string whose
escapes do not spell characters is still well formed, and it is told apart from all texts.
-/

namespace Reflow

inductive Json where
  | null
  | bool (b : Bool)
  /-- A whole number that is written in digits alone. -/
  | natural (n : Nat)
  /-- Any other number. -/
  | number
  /-- A string, or none if its escapes do not spell characters. -/
  | string (t : Option Text)
  | array (items : List Json)
  /-- Named values in the order in which they stand. -/
  | object (members : List (Option Text × Json))
deriving Repr

namespace Json

/-! ## Strings -/

/-- The value of four hexadecimal digits. -/
def hex4? : Text → Option (Nat × Text)
  | a :: b :: c :: d :: t => do
    let digit (c : Char) : Option Nat :=
      if '0' ≤ c ∧ c ≤ '9' then some (c.toNat - 48)
      else if 'a' ≤ c ∧ c ≤ 'f' then some (c.toNat - 87)
      else if 'A' ≤ c ∧ c ≤ 'F' then some (c.toNat - 55)
      else none
    return (4096 * (← digit a) + 256 * (← digit b) + 16 * (← digit c) + (← digit d), t)
  | _ => none

/-- The character that an escape with one letter stands for. -/
def escape? : Char → Option Char
  | '"' => some '"'
  | '\\' => some '\\'
  | '/' => some '/'
  | 'b' => some '\x08'
  | 'f' => some '\x0c'
  | 'n' => some '\n'
  | 'r' => some '\r'
  | 't' => some '\t'
  | _ => none

/-- Reads a string after its opening quote, in no more steps than the bound.  The text is put
together in reverse, and there is none after an escape that stands for half a character. -/
def stringFrom? : Nat → Option Text → Text → Option (Option Text × Text)
  | 0, _, _ => none
  | n + 1, read, t =>
    match t with
    | [] => none
    | '"' :: t => some (read.map List.reverse, t)
    | '\\' :: 'u' :: t => do
      let (code, t) ← hex4? t
      if code < 0xD800 || 0xDFFF < code then
        stringFrom? n (read.map (Char.ofNat code :: ·)) t
      else if 0xDBFF < code then stringFrom? n none t
      else
        match t with
        | '\\' :: 'u' :: rest =>
          match hex4? rest with
          | some (low, rest) =>
            if 0xDC00 ≤ low && low ≤ 0xDFFF then
              let whole := 0x10000 + (code - 0xD800) * 0x400 + (low - 0xDC00)
              stringFrom? n (read.map (Char.ofNat whole :: ·)) rest
            else stringFrom? n none t
          | none => none
        | _ => stringFrom? n none t
    | '\\' :: c :: t => do stringFrom? n (read.map ((← escape? c) :: ·)) t
    | c :: t => if c < ' ' then none else stringFrom? n (read.map (c :: ·)) t

def string? (t : Text) : Option (Option Text × Text) :=
  stringFrom? (t.length + 1) (some []) t

def escape (c : Char) : Text :=
  match c with
  | '"' => ['\\', '"']
  | '\\' => ['\\', '\\']
  | '\x08' => ['\\', 'b']
  | '\x0c' => ['\\', 'f']
  | '\n' => ['\\', 'n']
  | '\r' => ['\\', 'r']
  | '\t' => ['\\', 't']
  | c =>
    if c < ' ' then
      ['\\', 'u', '0', '0', Nat.digitChar (c.toNat / 16), Nat.digitChar (c.toNat % 16)]
    else [c]

def printString (t : Text) : Text :=
  '"' :: t.flatMap escape ++ ['"']

/-! ## Numbers -/

/-- The ASCII digits at the start of a text, and what follows them. -/
def digits (t : Text) : Text × Text :=
  (t.takeWhile Char.isDigit, t.dropWhile Char.isDigit)

/-- Drops the fraction and the exponent of a number, which have to have digits, and tells whether
there was one of them. -/
def fraction? (t : Text) : Option (Bool × Text) := do
  let (dotted, t) ← match t with
    | '.' :: t => if (digits t).1.isEmpty then none else some (true, (digits t).2)
    | t => some (false, t)
  match t with
  | e :: t =>
    if e = 'e' || e = 'E' then
      let t := match t with
        | '+' :: t => t
        | '-' :: t => t
        | t => t
      if (digits t).1.isEmpty then none else some (true, (digits t).2)
    else some (dotted, e :: t)
  | [] => some (dotted, [])

def number? (t : Text) : Option (Json × Text) := do
  let (negative, t) := match t with
    | '-' :: t => (true, t)
    | t => (false, t)
  let (whole, rest) := digits t
  if whole.isEmpty || (whole.head? = some '0' && 1 < whole.length) then none
  let (marked, rest) ← fraction? rest
  if negative || marked then some (number, rest)
  else some (((Numeral.digits? 0 whole).map natural).getD number, rest)

/-! ## Values -/

/-- Whether a character is white space between values. -/
def isSpace (c : Char) : Bool :=
  c = ' ' || c = '\n' || c = '\t' || c = '\r'

def dropSpace (t : Text) : Text :=
  t.dropWhile isSpace

mutual

/-- Reads a value, in no more steps than the bound. -/
def value? : Nat → Text → Option (Json × Text)
  | 0, _ => none
  | n + 1, t =>
    match dropSpace t with
    | 'n' :: 'u' :: 'l' :: 'l' :: t => some (null, t)
    | 't' :: 'r' :: 'u' :: 'e' :: t => some (bool true, t)
    | 'f' :: 'a' :: 'l' :: 's' :: 'e' :: t => some (bool false, t)
    | '"' :: t => (string? t).map fun found => (string found.1, found.2)
    | '[' :: t =>
      match dropSpace t with
      | ']' :: t => some (array [], t)
      | t => (items? n t).map fun found => (array found.1, found.2)
    | '\x7b' :: t =>
      match dropSpace t with
      | '\x7d' :: t => some (object [], t)
      | t => (members? n t).map fun found => (object found.1, found.2)
    | t => number? t

def items? : Nat → Text → Option (List Json × Text)
  | 0, _ => none
  | n + 1, t => do
    let (item, t) ← value? n t
    match dropSpace t with
    | ',' :: t => do
      let (items, t) ← items? n t
      return (item :: items, t)
    | ']' :: t => some ([item], t)
    | _ => none

def members? : Nat → Text → Option (List (Option Text × Json) × Text)
  | 0, _ => none
  | n + 1, t => do
    let (name, t) ← match dropSpace t with
      | '"' :: t => string? t
      | _ => none
    let t ← Text.after? [':'] (dropSpace t)
    let (value, t) ← value? n t
    match dropSpace t with
    | ',' :: t => do
      let (members, t) ← members? n t
      return ((name, value) :: members, t)
    | '\x7d' :: t => some ([(name, value)], t)
    | _ => none

end

def read? (t : Text) : Option Json := do
  let (value, rest) ← value? (2 * t.length + 2) t
  if (dropSpace rest).isEmpty then some value else none

end Json

end Reflow
