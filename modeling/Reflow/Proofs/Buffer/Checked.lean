import Reflow.Buffer.Wrap
import Reflow.Proofs.Buffer.Edits

/-!
# Checked edits

The operations on a buffer take the line of a number that is past the end for empty, and a difference that
would be negative for zero.  The checked operations fail instead.  On a well-formed buffer none of them fails,
so the operations never rely on that: each checked one gives what the operation itself gives.  What a wrapper
does with a text is not looked into.
-/

namespace Reflow

/-- The difference of two numbers, which must not be negative. -/
def minus? (m n : Nat) : Option Nat :=
  if n ≤ m then some (m - n) else none

theorem minus?_of_le {m n : Nat} (h : n ≤ m) : minus? m n = some (m - n) :=
  if_pos h

/-- The text without the character at an index, which must be in it. -/
def Text.eraseIdx? (t : Text) (n : Nat) : Option Text :=
  if n < t.length then some (t.eraseIdx n) else none

theorem Text.eraseIdx?_of_lt {t : Text} {n : Nat} (h : n < t.length) : eraseIdx? t n = some (t.eraseIdx n) :=
  if_pos h

namespace Buffer

variable {b : Buffer} {s : Selection} {n first last : Nat}

theorem getElem?_lines (h : n < b.lines.length) : b.lines[n]? = some (b.line n) := by
  simp [line, h]

/-! ## Edits -/

/-- The buffer with some lines in place of the first of two lines and those after it up to the second, which
both must be in it. -/
def splice? (b : Buffer) (first last : Nat) (lines : List Text) (caret : Position) : Option Buffer :=
  if first ≤ last ∧ last < b.lines.length then some (b.splice first last lines caret) else none

theorem splice?_of_le (h : first ≤ last) (h' : last < b.lines.length) (lines : List Text) (caret : Position) :
    b.splice? first last lines caret = some (b.splice first last lines caret) :=
  if_pos ⟨h, h'⟩

def insert? (b : Buffer) (c : Char) : Option Buffer := do
  let ⟨n, column⟩ := b.caret
  let line ← b.lines[n]?
  if c = '\n' then b.splice? n n [line.take column, line.drop column] ⟨n + 1, 0⟩
  else b.splice? n n [line.take column ++ c :: line.drop column] ⟨n, column + 1⟩

def insertText? (b : Buffer) (t : Text) : Option Buffer :=
  t.foldlM insert? b

def deleteBackward? (b : Buffer) : Option Buffer := do
  let ⟨n, column⟩ := b.caret
  if 0 < column then
    let line ← b.lines[n]?
    let before ← minus? column 1
    b.splice? n n [← Text.eraseIdx? line before] ⟨n, before⟩
  else if 0 < n then
    let line ← b.lines[n]?
    let above ← minus? n 1
    let lineAbove ← b.lines[above]?
    b.splice? above n [lineAbove ++ line] ⟨above, lineAbove.length⟩
  else b

def deleteForward? (b : Buffer) : Option Buffer := do
  let ⟨n, column⟩ := b.caret
  if column < b.lineLength n then
    let line ← b.lines[n]?
    b.splice? n n [← Text.eraseIdx? line column] b.caret
  else if n + 1 < b.lines.length then
    let line ← b.lines[n]?
    let lineBelow ← b.lines[n + 1]?
    b.splice? n (n + 1) [line ++ lineBelow] b.caret
  else b

theorem insert?_eq (h : b.Holds b.caret) (c : Char) : b.insert? c = some (b.insert c) := by
  have hline := getElem?_lines h.1
  have hsplice := splice?_of_le (Nat.le_refl _) h.1
  by_cases hc : c = '\n'
  · simp [insert?, insert, hline, hsplice, hc]
  · simp [insert?, insert, hline, hsplice, hc]

example : insert? ⟨["ab".toList], ⟨1, 0⟩⟩ 'c' = none := by decide

theorem deleteBackward?_eq (h : b.Holds b.caret) : b.deleteBackward? = some b.deleteBackward := by
  obtain ⟨lines, n, column⟩ := b
  obtain ⟨hlt, hle⟩ := h
  have hline := getElem?_lines hlt
  have hsplice := splice?_of_le (Nat.le_refl _) hlt
  simp only [lineLength] at hline hsplice hle
  by_cases hcolumn : 0 < column
  · have herase := Text.eraseIdx?_of_lt (Nat.sub_one_lt_of_le hcolumn hle)
    simp [deleteBackward?, deleteBackward, hcolumn, hline, minus?_of_le hcolumn, herase, hsplice]
  · by_cases hpos : 0 < n
    · have habove := getElem?_lines (Nat.lt_of_le_of_lt (Nat.sub_le n 1) hlt)
      have hsplice' := splice?_of_le (Nat.sub_le n 1) hlt
      simp only at habove
      simp [deleteBackward?, deleteBackward, hcolumn, hpos, hline, minus?_of_le hpos, habove, hsplice', lineLength]
    · simp [deleteBackward?, deleteBackward, hcolumn, hpos]

theorem deleteForward?_eq (h : b.Holds b.caret) : b.deleteForward? = some b.deleteForward := by
  obtain ⟨lines, n, column⟩ := b
  have hline := getElem?_lines h.1
  have hsplice := splice?_of_le (Nat.le_refl _) h.1
  simp only at hline hsplice
  by_cases hcolumn : column < lineLength ⟨lines, n, column⟩ n
  · simp [deleteForward?, deleteForward, hcolumn, hline, Text.eraseIdx?_of_lt hcolumn, hsplice]
  · by_cases hbelow : n + 1 < lines.length
    · have hlineBelow : lines[n + 1] = line ⟨lines, n, column⟩ (n + 1) := by simp [line, hbelow]
      have hsplice' := splice?_of_le (b := ⟨lines, n, column⟩) (Nat.le_succ n) hbelow
      simp [deleteForward?, deleteForward, hcolumn, hbelow, hline, hlineBelow, hsplice']
    · simp [deleteForward?, deleteForward, hcolumn, hbelow]

theorem insertText?_eq (h : b.WellFormed) (t : Text) : b.insertText? t = some (b.insertText t) := by
  induction t generalizing b with
  | nil => rfl
  | cons c t ih =>
    show (b.insert? c).bind (fun b => b.insertText? t) = some ((b.insert c).insertText t)
    rw [insert?_eq h.caret]
    exact ih (h.run [.insert c])

/-! ## Selections -/

def slice? (lines : List Text) (first last : Nat) : Option (List Text) :=
  if first ≤ last ∧ last ≤ lines.length then some ((lines.take last).drop first) else none

def textIn? (b : Buffer) (s : Selection) : Option Text := do
  let s := b.clampSelection s
  let head ← b.lines[s.start.line]?
  if s.start.line = s.stop.line then
    return (head.take s.stop.column).drop s.start.column
  else
    -- The number of lines is asked for before they are read.
    let _ ← minus? s.stop.line s.start.line
    let between ← slice? b.lines (s.start.line + 1) s.stop.line
    let tail ← b.lines[s.stop.line]?
    return Text.ofLines (head.drop s.start.column :: between ++ [tail.take s.stop.column])

def replace? (b : Buffer) (s : Selection) (t : Text) : Option (Buffer × Nat × Nat) := do
  let s := b.clampSelection s
  let head ← b.lines[s.start.line]?
  let tail ← b.lines[s.stop.line]?
  let inserted := Text.lines (head.take s.start.column ++ t ++ tail.drop s.stop.column)
  let last ← minus? (s.start.line + inserted.length) 1
  let width := ((Text.lines t).getLastD []).length
  let column := if t.contains '\n' then width else s.start.column + width
  return (← b.splice? s.start.line s.stop.line inserted ⟨last, column⟩, s.start.line, last)

theorem normalized_ordered (s : Selection) : s.normalized.start.line < s.normalized.stop.line ∨
    s.normalized.start.line = s.normalized.stop.line ∧ s.normalized.start.column ≤ s.normalized.stop.column := by
  unfold Selection.normalized
  split
  next h =>
    simp only [Position.isBefore, Bool.or_eq_true, Bool.and_eq_true, decide_eq_true_eq] at h
    simp only
    omega
  next h =>
    simp only [Position.isBefore, Bool.or_eq_true, Bool.and_eq_true, decide_eq_true_eq] at h
    omega

theorem clampSelection_spec (hne : b.lines ≠ []) (s : Selection) :
    (b.clampSelection s).start.line ≤ (b.clampSelection s).stop.line ∧ b.Holds (b.clampSelection s).start ∧
    b.Holds (b.clampSelection s).stop := by
  have hordered := normalized_ordered s
  refine ⟨?_, holds_clamp hne _, holds_clamp hne _⟩
  simp only [clampSelection, clamp]
  omega

theorem textIn?_eq (hne : b.lines ≠ []) (s : Selection) : b.textIn? s = some (b.textIn s) := by
  obtain ⟨hle, hstart, hstop⟩ := clampSelection_spec hne s
  unfold textIn? textIn
  simp only [getElem?_lines hstart.1, getElem?_lines hstop.1]
  by_cases hline : (b.clampSelection s).start.line = (b.clampSelection s).stop.line
  · simp [hline]
  · have hlt : (b.clampSelection s).start.line + 1 ≤ (b.clampSelection s).stop.line := by omega
    have hslice : slice? b.lines ((b.clampSelection s).start.line + 1) (b.clampSelection s).stop.line =
        some ((b.lines.take (b.clampSelection s).stop.line).drop ((b.clampSelection s).start.line + 1)) :=
      if_pos ⟨hlt, Nat.le_of_lt hstop.1⟩
    simp [hline, minus?_of_le hle, hslice]

theorem replace?_eq (hne : b.lines ≠ []) (s : Selection) (t : Text) : b.replace? s t = some (b.replace s t) := by
  obtain ⟨hle, hstart, hstop⟩ := clampSelection_spec hne s
  have hpos (u : Text) (n : Nat) : minus? (n + (Text.lines u).length) 1 = some (n + (Text.lines u).length - 1) := by
    have := List.length_pos_of_ne_nil (Text.lines_ne_nil (t := u))
    exact minus?_of_le (by omega)
  unfold replace? replace
  simp only [getElem?_lines hstart.1, getElem?_lines hstop.1]
  simp [hpos, splice?_of_le hle hstop.1, splice]

end Buffer

/-! ## Paragraphs -/

section

variable (holds : Text → Bool) (lines : List Text) {n : Nat}

/-- Goes up from a line while the line above passes a test. -/
def reachUp? : Nat → Option Nat
  | 0 => some 0
  | n + 1 => do if holds (← lines[n]?) then reachUp? n else return n + 1

/-- Goes down from a line while there is a line below that passes a test. -/
def reachDown? (n : Nat) : Option Nat :=
  if n + 1 < lines.length then do if holds (← lines[n + 1]?) then reachDown? (n + 1) else return n
  else some n
termination_by lines.length - n

theorem reachUp?_eq (h : n ≤ lines.length) :
    reachUp? holds lines n = some (n - ((lines.take n).reverse.takeWhile holds).length) := by
  induction n with
  | zero => rfl
  | succ n ih =>
    have hlt : n < lines.length := h
    have hline : lines[n]? = some lines[n] := List.getElem?_eq_getElem hlt
    have htake : (lines.take (n + 1)).reverse = lines[n] :: (lines.take n).reverse := by
      rw [← List.take_concat_get' lines n hlt, List.reverse_concat]
    rw [reachUp?, hline, htake, List.takeWhile_cons]
    cases hholds : holds lines[n] with
    | true => simp [hholds, ih (Nat.le_of_lt hlt)]
    | false => simp [hholds]

theorem reachDown?_eq (n : Nat) :
    reachDown? holds lines n = some (n + ((lines.drop (n + 1)).takeWhile holds).length) := by
  fun_induction reachDown? holds lines n with
  | case1 n hlt ih =>
    have hline : lines[n + 1]? = some lines[n + 1] := List.getElem?_eq_getElem hlt
    rw [hline, List.drop_eq_getElem_cons hlt, List.takeWhile_cons]
    cases hholds : holds lines[n + 1] with
    | true =>
      simp [ih, hholds]
      omega
    | false => simp [hholds]
  | case2 n hlt =>
    rw [List.drop_eq_nil_of_le (by omega)]
    rfl

end

/-- The first and the last line of the paragraph that a line is in, if the line is in the text and not bare. -/
def Markers.checkedParagraph? (markers : Markers) (lines : List Text) (n : Nat) : Option (Option (Nat × Nat)) :=
  let holdsWords := fun line => !markers.isBare line
  if n < lines.length then do
    if holdsWords (← lines[n]?) then return some (← reachUp? holdsWords lines n, ← reachDown? holdsWords lines n)
    else return none
  else some none

theorem Markers.checkedParagraph?_eq (markers : Markers) (lines : List Text) (n : Nat) :
    markers.checkedParagraph? lines n = some (markers.paragraph? lines n) := by
  unfold checkedParagraph? paragraph?
  by_cases hlt : n < lines.length
  · have hline : lines[n]? = some lines[n] := List.getElem?_eq_getElem hlt
    simp only [hlt, if_true, hline, reachUp?_eq _ _ (Nat.le_of_lt hlt), reachDown?_eq]
    cases hbare : markers.isBare lines[n] with
    | true => simp [hbare]
    | false => simp [hbare]
  · simp [hlt]

/-! ## Wraps -/

namespace Buffer

variable {b : Buffer}

def wrapIn? (b : Buffer) (w : Wrapper) (s : Selection) : Option (Buffer × WrapOutcome) := do
  let t ← b.textIn? s
  let wrapped := w.wrap t
  if t.all isBlank || wrapped = t then return (b, .unchanged)
  else
    let (b, first, last) ← b.replace? s wrapped
    return (b, .wrapped first last)

def wrapSelection? (b : Buffer) (w : Wrapper) (selection : Option Selection) : Option (Buffer × WrapOutcome) :=
  b.wrapIn? w ((filled? selection).getD (.ofLines b.lines b.caret.line b.caret.line))

def wrapParagraph? (b : Buffer) (w : Wrapper) (selection : Option Selection) : Option (Buffer × WrapOutcome) :=
  match filled? selection with
  | some s => b.wrapIn? w s
  | none => do
    match ← w.markers.checkedParagraph? b.lines b.caret.line with
    | some (first, last) => b.wrapIn? w (.ofLines b.lines first last)
    | none => return (b, .unchanged)

theorem wrapIn?_eq (hne : b.lines ≠ []) (w : Wrapper) (s : Selection) : b.wrapIn? w s = some (b.wrapIn w s) := by
  unfold wrapIn? wrapIn
  rw [textIn?_eq hne]
  simp only [Option.bind_eq_bind, Option.bind_some, replace?_eq hne]
  split <;> rfl

theorem wrapSelection?_eq (hne : b.lines ≠ []) (w : Wrapper) (selection : Option Selection) :
    b.wrapSelection? w selection = some (b.wrapSelection w selection) :=
  wrapIn?_eq hne w _

theorem wrapParagraph?_eq (hne : b.lines ≠ []) (w : Wrapper) (selection : Option Selection) :
    b.wrapParagraph? w selection = some (b.wrapParagraph w selection) := by
  unfold wrapParagraph? wrapParagraph
  cases filled? selection with
  | some s => exact wrapIn?_eq hne w s
  | none =>
    simp only [Markers.checkedParagraph?_eq, Option.bind_eq_bind, Option.bind_some]
    cases w.markers.paragraph? b.lines b.caret.line with
    | none => rfl
    | some bounds => exact wrapIn?_eq hne w _

end Buffer

end Reflow
