import Reflow.Proofs.Buffer.Parted

/-!
# Buffers as flat texts

A buffer that was only edited is a text that is parted at its caret, and each edit is one of the two
parts: what is typed goes to the end of the first one, and what is deleted goes from the end of the
first or the start of the second.  So the lines and the position of the caret can be left aside: a run
of edits on a buffer is the run on the text and the offset of the caret in it
(`Buffer.run_refines_flat`).
-/

namespace Reflow

open Text

/-! ## Flat texts -/

/-- A text and the number of characters before the caret in it. -/
structure Flat where
  text : Text
  offset : Nat
deriving DecidableEq, Repr

/-- What can be done to a buffer. -/
inductive Edit
  | setCaret (p : Position)
  | insert (c : Char)
  | insertText (t : Text)
  | deleteBackward
  | deleteForward
  | replace (s : Selection) (t : Text)
deriving DecidableEq, Repr

namespace Flat

def insertText (f : Flat) (t : Text) : Flat :=
  ⟨f.text.take f.offset ++ t ++ f.text.drop f.offset, f.offset + t.length⟩

def deleteBackward (f : Flat) : Flat :=
  if f.offset = 0 then f else ⟨f.text.eraseIdx (f.offset - 1), f.offset - 1⟩

def deleteForward (f : Flat) : Flat :=
  if f.offset < f.text.length then ⟨f.text.eraseIdx f.offset, f.offset⟩ else f

/-- Puts a text in place of what is between two offsets, and the caret after it. -/
def replace (f : Flat) (first last : Nat) (t : Text) : Flat :=
  ⟨f.text.take first ++ t ++ f.text.drop last, first + t.length⟩

/-- The offset of a position, brought into the text. -/
def offsetOf (f : Flat) (p : Position) : Nat :=
  (Buffer.ofText f.text).offset ((Buffer.ofText f.text).clamp p)

def edit (f : Flat) : Edit → Flat
  | .setCaret p => ⟨f.text, f.offsetOf p⟩
  | .insert c => f.insertText [c]
  | .insertText t => f.insertText t
  | .deleteBackward => f.deleteBackward
  | .deleteForward => f.deleteForward
  | .replace s t => f.replace (f.offsetOf s.normalized.start) (f.offsetOf s.normalized.stop) t

def run (f : Flat) (edits : List Edit) : Flat :=
  edits.foldl edit f

variable {x y : Text}

theorem insertText_parted (x y t : Text) :
    insertText ⟨x ++ y, x.length⟩ t = ⟨(x ++ t) ++ y, (x ++ t).length⟩ := by
  simp [insertText]

theorem deleteBackward_parted (x y : Text) :
    deleteBackward ⟨x ++ y, x.length⟩ = ⟨x.dropLast ++ y, x.dropLast.length⟩ := by
  rcases List.eq_nil_or_concat' x with rfl | ⟨x, c, rfl⟩
  · rfl
  · have hpos : (x ++ [c]).length ≠ 0 := by simp
    rw [deleteBackward, if_neg hpos]
    simp only [List.dropLast_concat, List.length_append, List.length_singleton,
      Nat.add_sub_cancel]
    rw [List.append_assoc, List.eraseIdx_append_of_length_le (Nat.le_refl _), Nat.sub_self]
    rfl

theorem deleteForward_parted (x y : Text) :
    deleteForward ⟨x ++ y, x.length⟩ = ⟨x ++ y.tail, x.length⟩ := by
  cases y with
  | nil => simp [deleteForward]
  | cons c y =>
    have hlt : x.length < (x ++ c :: y).length := by simp
    simp only [deleteForward, if_pos hlt]
    rw [List.eraseIdx_append_of_length_le (Nat.le_refl _), Nat.sub_self]
    rfl

theorem replace_parted {t u v : Text} (h : t = x ++ y) (h' : t = u ++ v) (n : Nat) (s : Text) :
    replace ⟨t, n⟩ x.length u.length s = ⟨(x ++ s) ++ v, (x ++ s).length⟩ := by
  have htake : t.take x.length = x := by rw [h, List.take_left]
  have hdrop : t.drop u.length = v := by rw [h', List.drop_left]
  simp only [replace, htake, hdrop, List.length_append]

end Flat

/-! ## Buffers -/

namespace Buffer

variable {b : Buffer} {p : Position} {s : Selection} {x y z t u v : Text} {c : Char}

/-- The lines are those of the text, and the caret is in it. -/
structure WellFormed (b : Buffer) : Prop where
  lines : b.lines = Text.lines b.text
  caret : b.Holds b.caret

/-- The buffer for a text in two parts, with the caret between them. -/
def parted (x y : Text) : Buffer :=
  ⟨Text.lines (x ++ y), .after x⟩

/-- The buffer as a text and an offset in it. -/
def flat (b : Buffer) : Flat :=
  ⟨b.text, b.offset b.caret⟩

def edit (b : Buffer) : Edit → Buffer
  | .setCaret p => b.setCaret p
  | .insert c => b.insert c
  | .insertText t => b.insertText t
  | .deleteBackward => b.deleteBackward
  | .deleteForward => b.deleteForward
  | .replace s t => (b.replace s t).1

def run (b : Buffer) (edits : List Edit) : Buffer :=
  edits.foldl edit b

theorem text_parted (x y : Text) : (parted x y).text = x ++ y :=
  ofLines_lines _

theorem flat_parted (x y : Text) : (parted x y).flat = ⟨x ++ y, x.length⟩ := by
  rw [flat, text_parted]
  exact congrArg _ (offset_after rfl)

theorem wellFormed_parted (x y : Text) : (parted x y).WellFormed :=
  ⟨congrArg Text.lines (text_parted x y).symm, holds_after rfl⟩

/-! ## Edits of a line -/

section

variable (front back : List Text) (u v : Text)

theorem insert_within (hc : c ≠ '\n') : insert ⟨front ++ (u ++ v) :: back, ⟨front.length, u.length⟩⟩ c =
    ⟨front ++ (u ++ c :: v) :: back, ⟨front.length, u.length + 1⟩⟩ := by
  simp [insert, splice, line, hc]

theorem insert_lf : insert ⟨front ++ (u ++ v) :: back, ⟨front.length, u.length⟩⟩ '\n' =
    ⟨front ++ u :: v :: back, ⟨front.length + 1, 0⟩⟩ := by
  simp [insert, splice, line]

theorem deleteBackward_within : deleteBackward ⟨front ++ (u ++ c :: v) :: back, ⟨front.length, u.length + 1⟩⟩ =
    ⟨front ++ (u ++ v) :: back, ⟨front.length, u.length⟩⟩ := by
  simp [deleteBackward, splice, line, List.eraseIdx_append_of_length_le]

theorem deleteForward_within : deleteForward ⟨front ++ (u ++ c :: v) :: back, ⟨front.length, u.length⟩⟩ =
    ⟨front ++ (u ++ v) :: back, ⟨front.length, u.length⟩⟩ := by
  simp [deleteForward, splice, line, lineLength, List.eraseIdx_append_of_length_le]

theorem drop_two : (front ++ u :: v :: back).drop (front.length + 1 + 1) = back := by
  rw [List.append_cons, List.append_cons]
  apply List.drop_left'
  simp

theorem deleteBackward_lf : deleteBackward ⟨front ++ u :: v :: back, ⟨front.length + 1, 0⟩⟩ =
    ⟨front ++ (u ++ v) :: back, ⟨front.length, u.length⟩⟩ := by
  have hdrop := drop_two front back u v
  simp [deleteBackward, splice, line, lineLength, hdrop]

theorem deleteForward_lf : deleteForward ⟨front ++ u :: v :: back, ⟨front.length, u.length⟩⟩ =
    ⟨front ++ (u ++ v) :: back, ⟨front.length, u.length⟩⟩ := by
  have hdrop := drop_two front back u v
  simp [deleteForward, splice, line, lineLength, hdrop]

end

/-! ## Typing -/

theorem parted_eq (x y : Text) :
    parted x y = ⟨upper x ++ (Text.lastLine x ++ firstLine y) :: lower y,
      ⟨(upper x).length, (Text.lastLine x).length⟩⟩ := by
  rw [← lines_parted]
  rfl

theorem parted_append_cons (x y : Text) (hc : c ≠ '\n') :
    parted (x ++ [c]) y = ⟨upper x ++ (Text.lastLine x ++ c :: firstLine y) :: lower y,
      ⟨(upper x).length, (Text.lastLine x).length + 1⟩⟩ := by
  obtain ⟨hupper, hlast⟩ := upper_append (x := x) (z := [c]) fun h => hc (List.mem_singleton.mp h).symm
  rw [parted_eq, hupper, hlast, List.append_assoc, List.length_append]
  rfl

theorem parted_append_lf (x y : Text) :
    parted (x ++ ['\n']) y = ⟨upper x ++ Text.lastLine x :: firstLine y :: lower y, ⟨(upper x).length + 1, 0⟩⟩ := by
  obtain ⟨hupper, hlast⟩ := upper_append_lf x []
  have hnil : upper [] = [] ∧ Text.lastLine [] = [] := upper_of_not_mem List.not_mem_nil
  rw [parted_eq, hupper, hlast, hnil.1, hnil.2, List.append_nil, lines_eq_upper x, List.append_assoc,
    List.length_append]
  rfl

theorem parted_cons (x y : Text) (hc : c ≠ '\n') :
    parted x (c :: y) = ⟨upper x ++ (Text.lastLine x ++ c :: firstLine y) :: lower y,
      ⟨(upper x).length, (Text.lastLine x).length⟩⟩ := by
  obtain ⟨hlower, hfirst⟩ := lower_cons (t := y) hc
  rw [parted_eq, hlower, hfirst]

theorem parted_lf (x y : Text) :
    parted x ('\n' :: y) = ⟨upper x ++ Text.lastLine x :: firstLine y :: lower y,
      ⟨(upper x).length, (Text.lastLine x).length⟩⟩ := by
  obtain ⟨hlower, hfirst⟩ := lower_append_lf [] y
  rw [List.nil_append] at hlower hfirst
  rw [parted_eq, hlower, hfirst, lines_eq_lower y]
  show Buffer.mk (upper x ++ (Text.lastLine x ++ []) :: firstLine y :: lower y) _ = _
  rw [List.append_nil]

theorem insert_parted (x y : Text) (c : Char) : (parted x y).insert c = parted (x ++ [c]) y := by
  by_cases hc : c = '\n'
  · rw [hc, parted_append_lf, parted_eq, insert_lf]
  · rw [parted_append_cons x y hc, parted_eq, insert_within _ _ _ _ hc]

theorem insertText_parted (x y t : Text) : (parted x y).insertText t = parted (x ++ t) y := by
  induction t generalizing x with
  | nil => rw [List.append_nil]; rfl
  | cons c t ih =>
    show ((parted x y).insert c).insertText t = _
    rw [insert_parted, ih, ← List.append_cons]

theorem deleteBackward_parted (x y : Text) : (parted x y).deleteBackward = parted x.dropLast y := by
  rcases List.eq_nil_or_concat' x with rfl | ⟨x, c, rfl⟩
  · rfl
  · rw [List.dropLast_concat]
    by_cases hc : c = '\n'
    · rw [hc, parted_append_lf, parted_eq, deleteBackward_lf]
    · rw [parted_append_cons x y hc, parted_eq, deleteBackward_within]

theorem deleteForward_parted (x y : Text) : (parted x y).deleteForward = parted x y.tail := by
  cases y with
  | nil =>
    have hnil : lower [] = [] ∧ firstLine [] = [] := lower_of_not_mem List.not_mem_nil
    rw [List.tail_nil, parted_eq, hnil.1, hnil.2]
    simp [deleteForward, lineLength, line]
  | cons c y =>
    rw [List.tail_cons]
    by_cases hc : c = '\n'
    · rw [hc, parted_lf, parted_eq, deleteForward_lf]
    · rw [parted_cons x y hc, parted_eq, deleteForward_within]

/-! ## Selections -/

theorem lines_between (x t v : Text) :
    upper x ++ Text.lines (Text.lastLine x ++ t ++ firstLine v) ++ lower v = Text.lines (x ++ t ++ v) ∧
    (Text.lines (Text.lastLine x ++ t ++ firstLine v)).length = (upper (Text.lastLine x ++ t)).length + 1 := by
  have hfirst : '\n' ∉ firstLine v := by
    apply not_mem_of_mem_lines (t := v)
    rw [lines_eq_lower]
    exact List.mem_cons_self
  obtain ⟨hlower, hself⟩ := lower_of_not_mem hfirst
  obtain ⟨hupper, hlast⟩ := upper_parted x t
  rw [lines_parted _ (firstLine v), hlower, hself, lines_parted (x ++ t), hupper, hlast]
  simp

theorem length_lastLine_append (x t : Text) :
    (Text.lastLine (x ++ t)).length =
      if t.contains '\n' then (Text.lastLine t).length else (Text.lastLine x).length + (Text.lastLine t).length := by
  by_cases ht : '\n' ∈ t
  · obtain ⟨a, d, rfl, hd⟩ := exists_last_line ht
    rw [if_pos (by simp), ← List.append_assoc, (upper_append_lf (x ++ a) d).2, (upper_append_lf a d).2]
  · rw [if_neg (by simpa using ht), (upper_append ht).2, (upper_of_not_mem ht).2, List.length_append]

theorem replace_of_clampSelection (hlines : b.lines = Text.lines (x ++ y)) (hlines' : b.lines = Text.lines (u ++ v))
    (hs : b.clampSelection s = ⟨.after x, .after u⟩) (t : Text) :
    b.replace s t = (parted (x ++ t) v, x.count '\n', (x ++ t).count '\n') := by
  have htake : (b.line (Position.after x).line).take (Position.after x).column = Text.lastLine x := by
    rw [line_after hlines]
    exact List.take_left
  have hdrop : (b.line (Position.after u).line).drop (Position.after u).column = firstLine v := by
    rw [line_after hlines']
    exact List.drop_left
  obtain ⟨hbetween, hlength⟩ := lines_between x t v
  have hline : (Position.after x).line + ((upper (Text.lastLine x ++ t)).length + 1) - 1 = (upper (x ++ t)).length := by
    rw [(upper_parted x t).1, List.length_append]
    rfl
  simp only [replace, hs, htake, hdrop, take_after hlines, drop_after hlines', hbetween, hlength, hline]
  rw [← length_upper, ← length_upper]
  show (Buffer.mk _ ⟨_, if t.contains '\n' then (Text.lastLine t).length
    else (Text.lastLine x).length + (Text.lastLine t).length⟩, _) = _
  rw [← length_lastLine_append]
  rfl

theorem drop_upper_append (hz : '\n' ∈ z) (x : Text) :
    (upper (x ++ z)).drop ((upper x).length + 1) ++ [Text.lastLine (x ++ z)] = lower z := by
  have hle : (upper x).length + 1 ≤ (upper (x ++ z)).length := by
    have hcount := List.count_pos_iff.mpr hz
    rw [length_upper, length_upper, List.count_append]
    omega
  rw [← List.drop_append_of_le_length hle, ← lines_eq_upper, lines_parted, List.append_cons]
  apply List.drop_left'
  rw [List.length_append]
  rfl

theorem textIn_of_clampSelection (hlines : b.lines = Text.lines (x ++ z ++ y))
    (hs : b.clampSelection s = ⟨.after x, .after (x ++ z)⟩) : b.textIn s = z := by
  have hlines' : b.lines = Text.lines (x ++ (z ++ y)) := by rw [hlines, List.append_assoc]
  simp only [textIn, hs]
  by_cases hz : '\n' ∈ z
  · have hne : (Position.after x).line ≠ (Position.after (x ++ z)).line := by
      have hcount := List.count_pos_iff.mpr hz
      simp [Position.after, length_upper]
      omega
    have hdrop : (b.line (Position.after x).line).drop (Position.after x).column = firstLine z := by
      obtain ⟨a, d, rfl⟩ := List.append_of_mem hz
      rw [line_after hlines', List.append_assoc, List.cons_append, (lower_append_lf a _).2, (lower_append_lf a d).2]
      exact List.drop_left
    have htake : (b.line (Position.after (x ++ z)).line).take (Position.after (x ++ z)).column =
        Text.lastLine (x ++ z) := by
      rw [line_after hlines]
      exact List.take_left
    rw [if_neg hne, hdrop, htake, take_after hlines, List.cons_append]
    show ofLines (firstLine z :: ((upper (x ++ z)).drop ((upper x).length + 1) ++ [Text.lastLine (x ++ z)])) = z
    rw [drop_upper_append hz, ← lines_eq_lower, ofLines_lines]
  · have hline : (Position.after x).line = (Position.after (x ++ z)).line := by
      simp [Position.after, (upper_append hz).1]
    rw [if_pos hline, hline, line_after hlines]
    show ((Text.lastLine (x ++ z) ++ firstLine y).take (Text.lastLine (x ++ z)).length).drop
      (Text.lastLine x).length = z
    rw [List.take_left, (upper_append hz).2, List.drop_left]

theorem exists_selected (hlines : b.lines = Text.lines t) (hstart : b.Holds s.start) (hstop : b.Holds s.stop) :
    ∃ x z y, t = x ++ z ++ y ∧ (s = ⟨.after x, .after (x ++ z)⟩ ∨ s = ⟨.after (x ++ z), .after x⟩) := by
  obtain ⟨start, stop⟩ := s
  obtain ⟨u, v, ht, hu⟩ := hstart.exists_parts hlines
  obtain ⟨u', v', ht', hu'⟩ := hstop.exists_parts hlines
  simp only at hu hu'
  subst hu hu'
  rcases List.append_eq_append_iff.mp (ht.symm.trans ht') with ⟨z, rfl, rfl⟩ | ⟨z, rfl, rfl⟩
  · exact ⟨u, z, v', ht', .inl rfl⟩
  · exact ⟨u', z, v, ht, .inr rfl⟩

theorem clampSelection_selected (hlines : b.lines = Text.lines (x ++ z ++ y))
    (h : s = ⟨.after x, .after (x ++ z)⟩ ∨ s = ⟨.after (x ++ z), .after x⟩) :
    b.clampSelection s = ⟨.after x, .after (x ++ z)⟩ := by
  have hlines' : b.lines = Text.lines (x ++ (z ++ y)) := by rw [hlines, List.append_assoc]
  rw [clampSelection, Selection.normalized_after h, clamp_of_holds (holds_after hlines'),
    clamp_of_holds (holds_after hlines)]

/-! ## Runs -/

theorem exists_parts_clamp (x y : Text) (p : Position) :
    ∃ u v, x ++ y = u ++ v ∧ (parted x y).clamp p = .after u ∧ ∀ n, Flat.offsetOf ⟨x ++ y, n⟩ p = u.length := by
  obtain ⟨u, v, htext, hclamp⟩ := (holds_clamp (b := parted x y) Text.lines_ne_nil p).exists_parts rfl
  refine ⟨u, v, htext, hclamp, ?_⟩
  intro n
  show (ofText (x ++ y)).offset ((parted x y).clamp p) = u.length
  rw [hclamp]
  exact offset_after (congrArg Text.lines htext)

/-- An edit of a parted text gives a parted text, which is that of the edit of the flat text. -/
theorem edit_parted (x y : Text) (e : Edit) :
    ∃ u v, (parted x y).edit e = parted u v ∧ Flat.edit ⟨x ++ y, x.length⟩ e = ⟨u ++ v, u.length⟩ := by
  cases e with
  | setCaret p =>
    obtain ⟨u, v, htext, hclamp, hoffset⟩ := exists_parts_clamp x y p
    refine ⟨u, v, ?_, ?_⟩
    · show Buffer.mk (Text.lines (x ++ y)) ((parted x y).clamp p) = _
      rw [hclamp, htext, parted]
    · show Flat.mk (x ++ y) (Flat.offsetOf ⟨x ++ y, x.length⟩ p) = _
      rw [hoffset, htext]
  | insert c => exact ⟨x ++ [c], y, insert_parted x y c, Flat.insertText_parted x y [c]⟩
  | insertText t => exact ⟨x ++ t, y, insertText_parted x y t, Flat.insertText_parted x y t⟩
  | deleteBackward => exact ⟨x.dropLast, y, deleteBackward_parted x y, Flat.deleteBackward_parted x y⟩
  | deleteForward => exact ⟨x, y.tail, deleteForward_parted x y, Flat.deleteForward_parted x y⟩
  | replace s t =>
    obtain ⟨u, v, htext, hclamp, hoffset⟩ := exists_parts_clamp x y s.normalized.start
    obtain ⟨u', v', htext', hclamp', hoffset'⟩ := exists_parts_clamp x y s.normalized.stop
    refine ⟨u ++ t, v', ?_, ?_⟩
    · show ((parted x y).replace s t).1 = _
      rw [replace_of_clampSelection (congrArg Text.lines htext) (congrArg Text.lines htext')]
      rw [clampSelection, hclamp, hclamp']
    · show Flat.replace _ (Flat.offsetOf _ s.normalized.start) (Flat.offsetOf _ s.normalized.stop) t = _
      rw [hoffset, hoffset', Flat.replace_parted htext htext']

theorem run_parted (edits : List Edit) (x y : Text) :
    ∃ u v, (parted x y).run edits = parted u v ∧ Flat.run ⟨x ++ y, x.length⟩ edits = ⟨u ++ v, u.length⟩ := by
  induction edits generalizing x y with
  | nil => exact ⟨x, y, rfl, rfl⟩
  | cons e edits ih =>
    obtain ⟨u, v, hedit, hflat⟩ := edit_parted x y e
    show ∃ u v, ((parted x y).edit e).run edits = parted u v ∧
      (Flat.edit ⟨x ++ y, x.length⟩ e).run edits = ⟨u ++ v, u.length⟩
    rw [hedit, hflat]
    exact ih u v

theorem WellFormed.exists_parted (h : b.WellFormed) : ∃ x y, b = parted x y := by
  obtain ⟨x, y, htext, hcaret⟩ := h.caret.exists_parts h.lines
  refine ⟨x, y, ?_⟩
  rw [parted, ← htext, ← h.lines, ← hcaret]

theorem WellFormed.run (h : b.WellFormed) (edits : List Edit) : (b.run edits).WellFormed := by
  obtain ⟨x, y, rfl⟩ := h.exists_parted
  obtain ⟨u, v, hrun, -⟩ := run_parted edits x y
  rw [hrun]
  exact wellFormed_parted u v

/-- A selection between two positions of a buffer, in either order: the text in it, and what it is
replaced by. -/
theorem selected_parted (x y : Text) (hstart : (parted x y).Holds s.start) (hstop : (parted x y).Holds s.stop)
    (u : Text) :
    let b := parted x y
    let first := min (b.offset s.start) (b.offset s.stop)
    let last := max (b.offset s.start) (b.offset s.stop)
    b.textIn s = (b.text.take last).drop first ∧
    (b.replace s u).1.WellFormed ∧ (b.replace s u).1.flat = b.flat.replace first last u ∧
    (b.replace s u).2 = ((b.text.take first).count '\n', (b.text.take first ++ u).count '\n') := by
  intro b first last
  obtain ⟨a, z, d, htext, hs⟩ := exists_selected (b := b) rfl hstart hstop
  have hlines : b.lines = Text.lines (a ++ z ++ d) := congrArg Text.lines htext
  have hlines' : b.lines = Text.lines (a ++ (z ++ d)) := by rw [hlines, List.append_assoc]
  have hclamp := clampSelection_selected hlines hs
  have hfirst : first = a.length ∧ last = (a ++ z).length := by
    have hle : a.length ≤ (a ++ z).length := by simp
    show min (b.offset s.start) (b.offset s.stop) = _ ∧ max (b.offset s.start) (b.offset s.stop) = _
    rcases hs with rfl | rfl
    · simp only [offset_after hlines, offset_after hlines']
      omega
    · simp only [offset_after hlines, offset_after hlines']
      omega
  have htake : b.text.take first = a := by
    rw [show b.text = _ from text_parted x y, htext, hfirst.1, List.append_assoc]
    exact List.take_left
  rw [htake, textIn_of_clampSelection hlines hclamp, replace_of_clampSelection hlines' hlines hclamp]
  refine ⟨?_, wellFormed_parted _ _, ?_, rfl⟩
  · rw [show b.text = _ from text_parted x y, htext, hfirst.1, hfirst.2, List.take_left, List.drop_left]
  · rw [show b.flat = _ from flat_parted x y, flat_parted, hfirst.1, hfirst.2,
      Flat.replace_parted (htext.trans (List.append_assoc _ _ _)) htext]

theorem insertText_eq_replace (x y u : Text) :
    (parted x y).insertText u = ((parted x y).replace ⟨.after x, .after x⟩ u).1 := by
  have hclamp : (parted x y).clampSelection ⟨.after x, .after x⟩ = ⟨.after x, .after x⟩ := by
    have hlines : (parted x y).lines = Text.lines (x ++ [] ++ y) := by rw [List.append_nil]; rfl
    have h := clampSelection_selected (s := ⟨.after x, .after x⟩) hlines
    rw [List.append_nil] at h
    exact h (.inl rfl)
  rw [insertText_parted, replace_of_clampSelection rfl rfl hclamp]

/-- A buffer that was edited in any way is a flat text that was edited in the same way; what is
selected between two positions of it, in either order, is the text between their offsets, and a text in
place of it comes between what is before and what is after it; and typing a text is replacing the empty
selection at the caret. -/
theorem run_refines_flat (t : Text) (edits : List Edit) :
    let b := (ofText t).run edits
    b.WellFormed ∧ b.flat = Flat.run ⟨t, 0⟩ edits ∧
    (∀ (s : Selection) (u : Text), b.Holds s.start → b.Holds s.stop →
      let first := min (b.offset s.start) (b.offset s.stop)
      let last := max (b.offset s.start) (b.offset s.stop)
      b.textIn s = (b.text.take last).drop first ∧
      (b.replace s u).1.WellFormed ∧ (b.replace s u).1.flat = b.flat.replace first last u ∧
      (b.replace s u).2 = ((b.text.take first).count '\n', (b.text.take first ++ u).count '\n')) ∧
    ∀ u : Text, b.insertText u = (b.replace ⟨b.caret, b.caret⟩ u).1 := by
  intro b
  obtain ⟨x, y, hrun, hflat⟩ := run_parted edits [] t
  have hb : b = parted x y := hrun
  rw [hb]
  refine ⟨wellFormed_parted x y, ?_, fun s u hstart hstop => selected_parted x y hstart hstop u,
    insertText_eq_replace x y⟩
  rw [flat_parted, ← hflat]
  rfl

theorem run_refines_flat_typed :
    let b := (ofText "one\ntwo".toList).run [.setCaret ⟨1, 0⟩, .insert 'x', .deleteBackward]
    let s : Selection := ⟨⟨1, 1⟩, ⟨0, 2⟩⟩
    b.WellFormed ∧ b.flat = Flat.run ⟨"one\ntwo".toList, 0⟩ [.setCaret ⟨1, 0⟩, .insert 'x', .deleteBackward] ∧
    b.textIn s = "e\nt".toList ∧ (b.replace s ['\n']).1.flat = ⟨"on\nwo".toList, 3⟩ ∧
    (b.replace s ['\n']).2 = (0, 1) ∧ b.insertText ['z'] = (b.replace ⟨b.caret, b.caret⟩ ['z']).1 := by
  intro b s
  obtain ⟨hwell, hflat, hselected, hinsert⟩ :=
    run_refines_flat "one\ntwo".toList [.setCaret ⟨1, 0⟩, .insert 'x', .deleteBackward]
  obtain ⟨htext, -, hreplace, hlines⟩ := hselected s ['\n'] (by decide) (by decide)
  exact ⟨hwell, hflat, htext, hreplace, hlines, hinsert ['z']⟩

end Buffer

end Reflow
