import Reflow.Text.Basic

/-!
# Line breaking with minimum raggedness

The words of a text are grouped into lines so that the sum of the squared space at the ends of the
lines is least.  A layout of the first words is extended word by word: the best layout that ends
after a word is found among the layouts that end before each of its predecessors.
-/

namespace Reflow.Break

/-- The cost of each column by which a line is too wide. -/
def overflowPenalty : Nat := Nat.pow 10 10

/-- The greatest cost that is told apart from greater ones. -/
def costBound : Nat := Nat.pow 2 128 - 1

/-- The cost of a layout whose last line has the given length, after lines of cost `before`.  A line
that is too wide is charged for its overflow alone. -/
def lineCost (width before length : Nat) : Nat :=
  if width < length then overflowPenalty * (length - width)
  else min (before + (width - length) * (width - length)) costBound

/-- A layout of some words: its cost, and its lines with the last one first. -/
structure Layout where
  cost : Nat
  /-- The words of each line, the last line first. -/
  lines : List (List Text)
deriving DecidableEq, Repr

def Layout.empty : Layout := ⟨0, []⟩

/-- A word together with the best layout of the words before it. -/
structure Step where
  word : Text
  before : Layout
deriving DecidableEq, Repr

/-- The better of the layouts that end with `line`, grown by more and more of the words before it,
and of `best`.  Of two equal costs the longer last line wins.  The search stops at the first line
that is too wide, since the lines after it only cost more. -/
def bestFrom (width : Nat) : List Step → List Text → Nat → Layout → Layout
  | [], _, _, best => best
  | step :: steps, line, length, best =>
    let length := step.word.length + 1 + length
    let line := step.word :: line
    let cost := lineCost width step.before.cost length
    let best := if cost ≤ best.cost then ⟨cost, line :: step.before.lines⟩ else best
    if width < length then best else bestFrom width steps line length best

/-- The best layout that ends with the word of `step`, where `steps` are the words before it, the
last one first. -/
def bestEnding (width : Nat) (step : Step) (steps : List Step) : Layout :=
  let length := step.word.length
  let only : Layout := ⟨lineCost width step.before.cost length, [step.word] :: step.before.lines⟩
  if width < length then only else bestFrom width steps [step.word] length only

/-- The best layout of more words, after `steps` and their layout `best`. -/
def layoutFrom (width : Nat) : List Step → Layout → List Text → Layout
  | _, best, [] => best
  | steps, best, word :: words =>
    let step : Step := ⟨word, best⟩
    layoutFrom width (step :: steps) (bestEnding width step steps) words

/-- The best layout of some words in a positive width. -/
def layout (width : Nat) (words : List Text) : Layout :=
  layoutFrom width [] .empty words

/-- Breaks a text into lines of least raggedness; its words are what single spaces separate, and
empty lines at the end are dropped. -/
def ragged (t : Text) (width : Nat) : List Text :=
  Text.dropTrailingEmpty
    ((layout (max width 1) (Text.splitOn ' ' t)).lines.reverse.map (Text.join ' '))

end Reflow.Break
