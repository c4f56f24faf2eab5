import Reflow.Character.Blank

/-!
# Texts

A text is a list of characters, and its length is the number of columns it takes.  This module
holds the ways a text is cut up and put together again: splitting at a character, taking the
pieces between separators, trimming and joining.
-/

namespace Reflow

/-- A text: a sequence of characters, each of them one column wide. -/
abbrev Text := List Char

/-- The sum of a number for each element of a list. -/
def total {α : Type} (f : α → Nat) : List α → Nat
  | [] => 0
  | a :: l => f a + total f l

namespace Text

/-! ## Splitting and joining -/

/-- The pieces of a text between the characters that satisfy `sep`; there is always at least one. -/
def split (sep : Char → Bool) : Text → List Text
  | [] => [[]]
  | c :: t =>
    match split sep t with
    | [] => [[]]
    | piece :: pieces => if sep c then [] :: piece :: pieces else (c :: piece) :: pieces

/-- The pieces of a text between the occurrences of `sep`. -/
def splitOn (sep : Char) (t : Text) : List Text :=
  split (fun c => c = sep) t

/-- The pieces that hold at least one character between the characters that satisfy `sep`. -/
def fields (sep : Char → Bool) (t : Text) : List Text :=
  (split sep t).filter fun piece => !piece.isEmpty

def words (t : Text) : List Text :=
  fields isBlank t

def lines (t : Text) : List Text :=
  splitOn '\n' t

/-- The pieces put together with `sep` between them. -/
def join (sep : Char) (pieces : List Text) : Text :=
  [sep].intercalate pieces

def ofLines (ls : List Text) : Text :=
  join '\n' ls

theorem split_ne_nil (sep : Char → Bool) (t : Text) : split sep t ≠ [] := by
  induction t with
  | nil => simp [split]
  | cons c t ih =>
    rw [split]
    split
    · simp
    · split <;> simp

/-! ## Trimming -/

/-- Drops the characters that satisfy `p` from the end. -/
def dropEndWhile (p : Char → Bool) (t : Text) : Text :=
  (t.reverse.dropWhile p).reverse

/-- Drops the characters that satisfy `p` from both ends. -/
def strip (p : Char → Bool) (t : Text) : Text :=
  dropEndWhile p (t.dropWhile p)

def trimStart (t : Text) : Text :=
  t.dropWhile isBlank

def trim (t : Text) : Text :=
  strip isBlank t

/-- Drops the empty texts at the end of a list. -/
def dropTrailingEmpty (ts : List Text) : List Text :=
  (ts.reverse.dropWhile List.isEmpty).reverse

/-- What follows `start` in a text that begins with it. -/
def after? (start t : Text) : Option Text :=
  if start.isPrefixOf t then some (t.drop start.length) else none

end Text

end Reflow
