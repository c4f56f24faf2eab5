import Reflow.Buffer.Basic
import Reflow.Proofs.Text.Lines

/-!
# Places in a text

A place in a text is where the text is parted in two.  The position of the place is read off the first
part (`Position.after`), and every position of a buffer is one of a place (`Buffer.Holds.exists_parts`).
-/

namespace Reflow

open Text

/-! ## Positions -/

/-- The position at the end of a text. -/
def Position.after (x : Text) : Position :=
  ⟨(upper x).length, (lastLine x).length⟩

namespace Position

variable {x z : Text}

theorem isBefore_after (hz : z ≠ []) : (after x).isBefore (after (x ++ z)) = true := by
  have hpos := List.length_pos_of_ne_nil hz
  by_cases hfeed : '\n' ∈ z
  · have hcount := List.count_pos_iff.mpr hfeed
    simp [isBefore, after, length_upper, hcount]
  · obtain ⟨hupper, hlast⟩ := upper_append (x := x) hfeed
    simp [isBefore, after, hupper, hlast, hpos]

theorem not_isBefore_after (x z : Text) : (after (x ++ z)).isBefore (after x) = false := by
  by_cases hfeed : '\n' ∈ z
  · have hcount := List.count_pos_iff.mpr hfeed
    simp [isBefore, after, length_upper]
    omega
  · obtain ⟨hupper, hlast⟩ := upper_append (x := x) hfeed
    simp [isBefore, after, hupper, hlast]

end Position

theorem Selection.normalized_after {s : Selection} {x z : Text}
    (h : s = ⟨.after x, .after (x ++ z)⟩ ∨ s = ⟨.after (x ++ z), .after x⟩) :
    s.normalized = ⟨.after x, .after (x ++ z)⟩ := by
  rcases h with rfl | rfl
  · rw [normalized, if_neg]
    simp [Position.not_isBefore_after]
  · by_cases hz : z = []
    · subst hz
      simp [normalized, Position.after]
    · rw [normalized, if_pos (Position.isBefore_after hz)]

namespace Buffer

variable {b : Buffer} {p : Position} {t x y : Text}

/-- A position of a line of the buffer. -/
def Holds (b : Buffer) (p : Position) : Prop :=
  p.line < b.lines.length ∧ p.column ≤ b.lineLength p.line

instance (b : Buffer) (p : Position) : Decidable (b.Holds p) :=
  inferInstanceAs (Decidable (_ ∧ _))

/-- The number of characters of the text before a position. -/
def offset (b : Buffer) (p : Position) : Nat :=
  total (fun line => line.length + 1) (b.lines.take p.line) + p.column

theorem lines_around {n : Nat} (h : n < b.lines.length) :
    b.lines = b.lines.take n ++ b.line n :: b.lines.drop (n + 1) := by
  have hline : b.line n = b.lines[n] := by simp [line, h]
  rw [hline, ← List.drop_eq_getElem_cons h, List.take_append_drop]

theorem take_around {m n : Nat} (h : n < b.lines.length) (hlt : n < m) :
    b.lines.take m = b.lines.take n ++ b.line n :: (b.lines.take m).drop (n + 1) := by
  have hlength : n < (b.lines.take m).length := by
    rw [List.length_take]
    exact Nat.lt_min.mpr ⟨hlt, h⟩
  have hlines := lines_around (b := ⟨b.lines.take m, b.caret⟩) hlength
  have hline : line ⟨b.lines.take m, b.caret⟩ n = b.line n := by rw [line, line, List.getElem?_take_of_lt hlt]
  rwa [hline, List.take_take, Nat.min_eq_left (Nat.le_of_lt hlt)] at hlines

theorem clamp_of_holds (h : b.Holds p) : b.clamp p = p := by
  have hline : min p.line b.lastLine = p.line := by
    have hlt := h.1
    rw [lastLine]
    omega
  rw [clamp, hline, Nat.min_eq_left h.2]

theorem holds_clamp (hne : b.lines ≠ []) (p : Position) : b.Holds (b.clamp p) := by
  have hpos := List.length_pos_of_ne_nil hne
  refine ⟨?_, Nat.min_le_right _ _⟩
  show min p.line (b.lines.length - 1) < b.lines.length
  omega

section

variable (h : b.lines = Text.lines (x ++ y))
include h

theorem line_after : b.line (Position.after x).line = Text.lastLine x ++ firstLine y := by
  simp [line, h, lines_parted, Position.after]

theorem take_after : b.lines.take (Position.after x).line = upper x := by
  rw [h, lines_parted]
  exact List.take_left

theorem drop_after : b.lines.drop ((Position.after x).line + 1) = lower y := by
  rw [h, lines_parted, List.append_cons]
  apply List.drop_left'
  rw [List.length_append]
  rfl

theorem holds_after : b.Holds (.after x) := by
  refine ⟨?_, ?_⟩
  · rw [h, lines_parted]
    simp [Position.after]
  · rw [lineLength, line_after h]
    simp [Position.after]

theorem offset_after : b.offset (.after x) = x.length := by
  rw [offset, take_after h]
  exact total_upper x

end

theorem Holds.exists_parts (hlines : b.lines = Text.lines t) (h : b.Holds p) : ∃ x y, t = x ++ y ∧ p = .after x := by
  obtain ⟨hline, hcolumn⟩ := h
  obtain ⟨front, l, back, hls, hfront, hcolumn⟩ : ∃ front l back,
      Text.lines t = front ++ l :: back ∧ front.length = p.line ∧ p.column ≤ l.length :=
    ⟨_, _, _, hlines.symm.trans (lines_around hline), List.length_take_of_le (Nat.le_of_lt hline), hcolumn⟩
  have hfeeds : ∀ line ∈ Text.lines t, '\n' ∉ line := fun line hmem => not_mem_of_mem_lines hmem
  rw [hls, List.forall_mem_append, List.forall_mem_cons] at hfeeds
  obtain ⟨hfront', hl, hback⟩ := hfeeds
  -- Both parts are put together from their lines, which no line feed stands in.
  obtain ⟨hupper, hlast⟩ := upper_eq (t := ofLines (front ++ [l.take p.column])) <| by
    refine splitOn_join (by simp) ?_
    simp only [List.forall_mem_append, List.forall_mem_singleton]
    exact ⟨hfront', fun hmem => hl (List.mem_of_mem_take hmem)⟩
  obtain ⟨hlower, hfirst⟩ := lower_eq (t := ofLines (l.drop p.column :: back)) <| by
    refine splitOn_join (by simp) ?_
    rw [List.forall_mem_cons]
    exact ⟨fun hmem => hl (List.mem_of_mem_drop hmem), hback⟩
  refine ⟨ofLines (front ++ [l.take p.column]), ofLines (l.drop p.column :: back), ?_, ?_⟩
  · rw [← ofLines_lines t, ← ofLines_lines (_ ++ _), lines_parted, hupper, hlast, hlower, hfirst,
      List.take_append_drop, hls]
  · simp [Position.after, hupper, hlast, hfront, Nat.min_eq_left hcolumn]

end Buffer

end Reflow
