import Reflow.Proofs.Buffer.Checked

/-!
# Selections that cross

What a selection reads and replaces, by the offsets of its ends once they are in the buffer
(`Buffer.textIn_eq_slice`, `Buffer.text_replace`).  The earlier end is found before the ends are brought into the
buffer, each by itself.  Of two lines past the last one both become the last one, and then the columns can be
the wrong way round (`Buffer.Crossed`).  Between such ends nothing is read, and what stands there is written
twice.
-/

namespace Reflow

open Text

namespace Buffer

variable {b : Buffer} {p q : Position} {s : Selection}

/-! ## Offsets -/

namespace Holds

variable (h : b.Holds p)
include h

theorem text_eq : b.text = ofLines (b.lines.take p.line ++ [(b.line p.line).take p.column]) ++
    ofLines ((b.line p.line).drop p.column :: b.lines.drop (p.line + 1)) := by
  rw [← ofLines_seam, List.take_append_drop, ← lines_around h.1, text]

theorem length_before : (ofLines (b.lines.take p.line ++ [(b.line p.line).take p.column])).length = b.offset p := by
  rw [length_ofLines_append, List.length_take_of_le h.2, offset]

theorem take_offset :
    b.text.take (b.offset p) = ofLines (b.lines.take p.line ++ [(b.line p.line).take p.column]) := by
  rw [h.text_eq, ← h.length_before]
  exact List.take_left

theorem drop_offset :
    b.text.drop (b.offset p) = ofLines ((b.line p.line).drop p.column :: b.lines.drop (p.line + 1)) := by
  rw [h.text_eq, ← h.length_before]
  exact List.drop_left

theorem offset_le : b.offset p ≤ b.text.length := by
  rw [h.text_eq, List.length_append, h.length_before]
  exact Nat.le_add_right _ _

theorem offset_lt (hlt : p.line < q.line) : b.offset p < b.offset q := by
  have hcolumn := h.2
  rw [lineLength] at hcolumn
  rw [offset, offset, take_around h.1 hlt, total_append, total]
  omega

end Holds

/-! ## What is read and replaced -/

section

variable (hne : b.lines ≠ []) (s : Selection)
include hne

theorem textIn_eq_slice :
    b.textIn s = (b.text.take (b.offset (b.clampSelection s).stop)).drop (b.offset (b.clampSelection s).start) := by
  obtain ⟨hle, hstart, hstop⟩ := clampSelection_spec hne s
  rw [hstop.take_offset, textIn]
  generalize b.clampSelection s = c at hle hstart hstop
  rcases Nat.lt_or_eq_of_le hle with hlt | heq
  · have hseam := ofLines_seam (b.lines.take c.start.line) ((b.line c.start.line).take c.start.column)
      ((b.line c.start.line).drop c.start.column)
      ((b.lines.take c.stop.line).drop (c.start.line + 1) ++ [(b.line c.stop.line).take c.stop.column])
    rw [List.take_append_drop, ← List.cons_append, ← List.append_assoc, ← take_around hstart.1 hlt] at hseam
    rw [if_neg (Nat.ne_of_lt hlt), hseam, ← hstart.length_before]
    exact List.drop_left.symm
  · have hseam (u : Text) := ofLines_seam (b.lines.take c.start.line) [] u []
    have hlength : b.offset c.start = (ofLines (b.lines.take c.start.line ++ [[]])).length + c.start.column := by
      rw [length_ofLines_append]
      rfl
    simp only [List.nil_append, ofLines, join_singleton] at hseam hlength
    rw [if_pos heq, ← heq, ofLines, hseam, hlength, List.drop_length_add_append]

theorem text_replace (t : Text) : (b.replace s t).1.text =
    b.text.take (b.offset (b.clampSelection s).start) ++ t ++ b.text.drop (b.offset (b.clampSelection s).stop) := by
  obtain ⟨-, hstart, hstop⟩ := clampSelection_spec hne s
  have hself : ofLines [t] = t := join_singleton
  rw [hstart.take_offset, hstop.drop_offset, replace]
  simp only [text]
  rw [ofLines_append_lines, ofLines_seam, ofLines_seam, hself]

end

/-! ## Ends that cross -/

/-- Both ends are on the last line or past it, on different lines, and the column of the later one comes before
that of the earlier one. -/
def Crossed (b : Buffer) (s : Selection) : Prop :=
  b.lastLine ≤ s.normalized.start.line ∧ s.normalized.start.line < s.normalized.stop.line ∧
  s.normalized.stop.column < min s.normalized.start.column (b.lineLength b.lastLine)

instance (b : Buffer) (s : Selection) : Decidable (b.Crossed s) :=
  inferInstanceAs (Decidable (_ ∧ _))

theorem offset_lt_offset_iff (hline : p.line = q.line) : b.offset p < b.offset q ↔ p.column < q.column := by
  rw [offset, offset, hline, Nat.add_lt_add_iff_left]

theorem offset_lt_iff_crossed (hne : b.lines ≠ []) (s : Selection) :
    b.offset (b.clampSelection s).stop < b.offset (b.clampSelection s).start ↔ b.Crossed s := by
  obtain ⟨hle, hstart, -⟩ := clampSelection_spec hne s
  have hordered := normalized_ordered s
  rcases Nat.lt_or_eq_of_le hle with hlt | heq
  · have hoffset := hstart.offset_lt hlt
    simp only [clampSelection, clamp] at hlt
    rw [Crossed]
    omega
  · rw [offset_lt_offset_iff heq.symm]
    simp only [clampSelection, clamp] at heq ⊢
    rw [← heq, Crossed]
    by_cases hlast : b.lastLine ≤ s.normalized.start.line
    · rw [Nat.min_eq_right hlast]
      omega
    · omega

theorem length_textIn (hne : b.lines ≠ []) (s : Selection) : (b.textIn s).length =
    b.offset (b.clampSelection s).stop - b.offset (b.clampSelection s).start := by
  obtain ⟨-, -, hstop⟩ := clampSelection_spec hne s
  rw [textIn_eq_slice hne, List.length_drop, List.length_take_of_le hstop.offset_le]

theorem length_text_replace (hne : b.lines ≠ []) (s : Selection) (t : Text) :
    (b.replace s t).1.text.length + (b.textIn s).length = b.text.length + t.length +
      (b.offset (b.clampSelection s).start - b.offset (b.clampSelection s).stop) := by
  obtain ⟨-, hstart, hstop⟩ := clampSelection_spec hne s
  have hle := hstop.offset_le
  rw [text_replace hne, length_textIn hne, List.length_append, List.length_append,
    List.length_take_of_le hstart.offset_le, List.length_drop]
  omega

/-- A buffer with at least one line reads and replaces what any two ends select.  Putting back what was read
leaves the text as it is, and a replacement makes up for what was read, exactly if the ends do not cross. -/
theorem replace_textIn_iff (hne : b.lines ≠ []) (s : Selection) :
    b.textIn? s = some (b.textIn s) ∧ (∀ t, b.replace? s t = some (b.replace s t)) ∧
    ((b.replace s (b.textIn s)).1.text = b.text ↔ ¬b.Crossed s) ∧
    ∀ t, (b.replace s t).1.text.length + (b.textIn s).length = b.text.length + t.length ↔ ¬b.Crossed s := by
  have hcrossed := offset_lt_iff_crossed hne s
  have hlength (t : Text) : (b.replace s t).1.text.length + (b.textIn s).length = b.text.length + t.length ↔
      ¬b.Crossed s := by
    rw [length_text_replace hne, ← hcrossed]
    omega
  refine ⟨textIn?_eq hne s, replace?_eq hne s, ⟨fun h => ?_, fun h => ?_⟩, hlength⟩
  · exact (hlength _).mp (by rw [h])
  · have hle : b.offset (b.clampSelection s).start ≤ b.offset (b.clampSelection s).stop :=
      Nat.le_of_not_lt (mt hcrossed.mp h)
    have htake : b.text.take (b.offset (b.clampSelection s).start) =
        (b.text.take (b.offset (b.clampSelection s).stop)).take (b.offset (b.clampSelection s).start) := by
      rw [List.take_take, Nat.min_eq_left hle]
    rw [text_replace hne, textIn_eq_slice hne, htake, List.take_append_drop, List.take_append_drop]

/-- In a text of one line, what is selected from its third character to the start of a line below is read as
nothing, and the two characters before it are written twice. -/
theorem replace_textIn_ne_crossed :
    let b := ofText "abc".toList
    let s : Selection := ⟨⟨0, 2⟩, ⟨1, 0⟩⟩
    b.textIn? s = some [] ∧ b.replace? s [] = some (b.replace s []) ∧ (b.replace s []).1.text = "ababc".toList ∧
    (b.replace s (b.textIn s)).1.text ≠ b.text ∧
    (b.replace s ['x']).1.text.length + (b.textIn s).length ≠ b.text.length + 1 := by
  intro b s
  obtain ⟨hread, hreplace, hsame, hlength⟩ := replace_textIn_iff (b := b) (by decide) s
  have hcrossed : b.Crossed s := by decide
  exact ⟨hread, hreplace [], by decide, fun h => hsame.mp h hcrossed, fun h => (hlength ['x']).mp h hcrossed⟩

end Buffer

end Reflow
