import Reflow.Proofs.Batch.Wrap
import Reflow.Proofs.Buffer.Paragraph

/-!
# Wrapping some lines of a text

Of a text in which some lines are to be wrapped only those are touched (`Wrapper.wrapLines`), unless it is a
single line and an empty one.  A selection of that line is empty, so the line of the caret is wrapped in its
place, and that is the first line of the text (`Batch.wrapText_lines_iff`).
-/

namespace Reflow

open Text

/-- The lines of a text with those from one to another wrapped, or as they are if these are blank. -/
def Wrapper.wrapLines (w : Wrapper) (ls : List Text) (first last : Nat) : List Text :=
  let chosen := linesIn ls first last
  ls.take first ++ (if chosen.all (·.all isBlank) then chosen else lines (w.wrap (ofLines chosen))) ++
    ls.drop (last + 1)

variable {w : Wrapper} {ls : List Text} {t : Text} {first last : Nat}

theorem take_linesIn_drop (ls : List Text) (h : first ≤ last) :
    ls.take first ++ linesIn ls first last ++ ls.drop (last + 1) = ls := by
  have htake : ls.take first = (ls.take (last + 1)).take first := by
    rw [List.take_take, Nat.min_eq_left (Nat.le_succ_of_le h)]
  rw [linesIn, htake, List.take_append_drop, List.take_append_drop]

namespace Buffer

variable {b : Buffer}

theorem WellFormed.not_mem_line (h : b.WellFormed) : ∀ l ∈ b.lines, '\n' ∉ l := by
  rw [h.lines]
  exact fun l hl => not_mem_of_mem_lines hl

theorem WellFormed.wrapIn (h : b.WellFormed) (w : Wrapper) (s : Selection) : (b.wrapIn w s).1.WellFormed := by
  unfold Buffer.wrapIn
  simp only
  split
  · exact h
  · exact h.run [.replace s _]

theorem lines_wrapIn_ofLines (h : b.WellFormed) (hle : first ≤ last) (hlast : last < b.lines.length) :
    (b.wrapIn w (.ofLines b.lines first last)).1.lines = w.wrapLines b.lines first last := by
  have hblank : (linesIn b.lines first last).all (·.all isBlank) = true ↔ (b.linesText first last).all isBlank = true :=
    List.all_eq_true.trans blank_ofLines_iff.symm
  have hlines : Text.lines (b.linesText first last) = linesIn b.lines first last := by
    refine splitOn_join (List.ne_nil_of_mem (line_mem_linesIn (Nat.le_refl _) hle hlast)) fun l hl => ?_
    exact h.not_mem_line l (List.mem_of_mem_take (List.mem_of_mem_drop hl))
  have hkept := take_linesIn_drop b.lines hle
  rw [wrapIn_ofLines hle hlast, Wrapper.wrapLines]
  simp only [Bool.or_eq_true, decide_eq_true_eq, ← hblank]
  by_cases hall : (linesIn b.lines first last).all (·.all isBlank) = true
  · rw [if_pos (.inl hall), if_pos hall, hkept]
  · rw [if_neg hall]
    by_cases hsame : w.wrap (b.linesText first last) = b.linesText first last
    · rw [if_pos (.inr hsame), ← linesText, hsame, hlines, hkept]
    · rw [if_neg (not_or.mpr ⟨hall, hsame⟩)]
      rfl

end Buffer

theorem Selection.isEmpty_ofLines_iff (hlast : last < ls.length) :
    (Selection.ofLines ls first last).isEmpty = true ↔ first = last ∧ ls[last]? = some [] := by
  have hline : ls[last]? = some ls[last] := List.getElem?_eq_getElem hlast
  rw [isEmpty, decide_eq_true_eq, Selection.ofLines, Position.mk.injEq, hline, Option.getD_some, Option.some.injEq,
    eq_comm (a := 0), List.length_eq_zero_iff]

namespace Batch

variable {s : Settings} {o : BatchOptions} {p : Option Path}

theorem lines_wrapSelection (w : Wrapper) (t : Text) (hle : first ≤ last) (hlast : last < (lines t).length) :
    lines ((Buffer.ofText t).wrapSelection w (some (.ofLines (lines t) first last))).1.text =
      if first = last ∧ (lines t)[last]? = some [] then w.wrapLines (lines t) 0 0
      else w.wrapLines (lines t) first last := by
  have hwell : (Buffer.ofText t).WellFormed := Buffer.wellFormed_parted [] t
  have hempty : (Selection.ofLines (lines t) first last).isEmpty = true ↔ _ := Selection.isEmpty_ofLines_iff hlast
  have hfirst : 0 < (lines t).length := Nat.zero_lt_of_lt hlast
  rw [Buffer.wrapSelection, ← (hwell.wrapIn w _).lines, Buffer.filled?, Option.filter_some]
  by_cases h : first = last ∧ (lines t)[last]? = some []
  · rw [if_pos h, hempty.mpr h]
    exact Buffer.lines_wrapIn_ofLines hwell (Nat.le_refl 0) hfirst
  · rw [if_neg h, Bool.eq_false_iff.mpr (mt hempty.mp h)]
    exact Buffer.lines_wrapIn_ofLines hwell hle hlast

theorem wrapLines_eq_self_iff {n : Nat} (hn : n < (lines t).length) :
    w.wrapLines (lines t) n n = lines t ↔ Blank (lines t)[n] ∨ w.wrap (lines t)[n] = (lines t)[n] := by
  have hself : linesIn (lines t) n n = [(lines t)[n]] := by
    have h : linesIn (lines t) n n = [(lines t)[n]?.getD []] := Buffer.linesIn_self (b := .ofText t) hn
    rwa [List.getElem?_eq_getElem hn] at h
  have hline : lines (lines t)[n] = [(lines t)[n]] := lines_eq_singleton (not_mem_of_mem_lines (List.getElem_mem hn))
  have hkept := take_linesIn_drop (lines t) (Nat.le_refl n)
  rw [hself] at hkept
  have hall : [(lines t)[n]].all (·.all isBlank) = true ↔ Blank (lines t)[n] := by simp [Blank]
  rw [Wrapper.wrapLines, hself, ofLines, join_singleton]
  by_cases hblank : Blank (lines t)[n]
  · rw [if_pos (hall.mpr hblank)]
    exact iff_of_true hkept (.inl hblank)
  · rw [if_neg (mt hall.mp hblank), or_iff_right hblank, ← lines_inj, hline]
    conv => lhs; rhs; rw [← hkept]
    rw [List.append_left_inj, List.append_right_inj]

/-- In a text without carriage returns the chosen lines are wrapped and all others kept, exactly if the choice is
not one empty line or the first line of the text stays as it is when it is wrapped. -/
theorem wrapText_lines_iff (hscope : o.scope = .lines first last) (hcr : '\r' ∉ t) (hle : first ≤ last)
    (hlast : last < (lines t).length) : ∃ w, Wrapper.ofOptions? (optionsFor s o p) = some w ∧
      (wrapText s o p t).map lines = .ok (if first = last ∧ (lines t)[last]? = some []
        then w.wrapLines (lines t) 0 0 else w.wrapLines (lines t) first last) ∧
      ((wrapText s o p t).map lines = .ok (w.wrapLines (lines t) first last) ↔
        ¬(first = last ∧ (lines t)[last]? = some []) ∨ Blank (firstLine t) ∨ w.wrap (firstLine t) = firstLine t) := by
  obtain ⟨w, hw, heq⟩ := exists_wrapText_eq s o p t
  have hlines : (wrapText s o p t).map lines = .ok (if first = last ∧ (lines t)[last]? = some []
      then w.wrapLines (lines t) 0 0 else w.wrapLines (lines t) first last) := by
    have hlast' : last < (Buffer.ofText t).lines.length := hlast
    rw [heq, LineEnding.detect_eq_lf hcr, LineEnding.normalize_eq_self hcr, hscope, wrapScope]
    simp only [hlast', if_true]
    show Except.ok (lines ((Buffer.ofText t).wrapSelection w (some (.ofLines (lines t) first last))).1.text) = _
    rw [lines_wrapSelection w t hle hlast]
  refine ⟨w, hw, hlines, ?_⟩
  rw [hlines, Except.ok.injEq]
  by_cases h : first = last ∧ (lines t)[last]? = some []
  · have hpos : 0 < (lines t).length := Nat.zero_lt_of_lt hlast
    have hfirst : (lines t)[0] = firstLine t := by
      simp [lines_eq_lower t]
    have hempty : w.wrapLines (lines t) first last = lines t := by
      have hnil : (lines t)[last] = [] := Option.some.inj ((List.getElem?_eq_getElem hlast).symm.trans h.2)
      rw [h.1, wrapLines_eq_self_iff hlast, hnil]
      exact .inl blank_nil
    rw [if_pos h, hempty, wrapLines_eq_self_iff hpos, hfirst, or_iff_right (not_not.mpr h)]
  · rw [if_neg h]
    exact iff_of_true rfl (.inl h)

/-- The one line that is chosen is empty, and the first line is wrapped. -/
theorem wrapText_lines_ne_empty :
    let o : BatchOptions := { scope := .lines 1 1, fallbackWidth := 4 }
    let t := "aaa bbb\n\nccc".toList
    ∃ w, Wrapper.ofOptions? (optionsFor {} o none) = some w ∧
      (wrapText {} o none t).map lines = .ok ["aaa".toList, "bbb".toList, [], "ccc".toList] ∧
      (wrapText {} o none t).map lines ≠ .ok (w.wrapLines (lines t) 1 1) := by
  intro o t
  obtain ⟨w, hw, hlines, hkept⟩ := wrapText_lines_iff (s := {}) (o := o) (p := none) (t := t) rfl (by decide)
    (Nat.le_refl 1) (by decide)
  have hcode : w = ⟨{ width := 4 }, .code⟩ := Option.some.inj (hw.symm.trans rfl)
  have hwrap : w.wrap "aaa bbb".toList = "aaa\nbbb".toList := by rw [hcode, Buffer.wrap_two_words]
  have hempty : 1 = 1 ∧ (lines t)[1]? = some [] := by decide
  have hfirst : firstLine t = "aaa bbb".toList := by decide
  refine ⟨w, hw, ?_, ?_⟩
  · rw [hlines, if_pos hempty]
    have hline : w.wrapLines (lines t) 0 0 = lines (w.wrap "aaa bbb".toList) ++ [[], "ccc".toList] := rfl
    rw [hline, hwrap]
    decide
  · rw [Ne, hkept, hfirst, hwrap]
    decide

end Batch

end Reflow
