import Reflow.Proofs.Buffer.Checked

/-!
# Whole lines

A selection of whole lines is in the buffer as it stands.  What it reads is those lines, and what replaces it
takes their place line by line, so the lines before and after it stay what they are (`Buffer.wrapIn_ofLines`).
-/

namespace Reflow

open Text

def linesIn (ls : List Text) (first last : Nat) : List Text :=
  (ls.take (last + 1)).drop first

namespace Buffer

def linesText (b : Buffer) (first last : Nat) : Text :=
  ofLines (linesIn b.lines first last)

variable {b : Buffer} {first last n : Nat}

theorem take_succ_lines (h : n < b.lines.length) : b.lines.take (n + 1) = b.lines.take n ++ [b.line n] := by
  rw [List.take_succ_eq_append_getElem h]
  simp [line, h]

theorem linesIn_self (h : n < b.lines.length) : linesIn b.lines n n = [b.line n] := by
  rw [linesIn, take_succ_lines h]
  exact List.drop_left' (List.length_take_of_le (Nat.le_of_lt h))

theorem linesIn_of_lt (hlt : first < last) (hlast : last < b.lines.length) :
    linesIn b.lines first last = b.line first :: (b.lines.take last).drop (first + 1) ++ [b.line last] := by
  have hfirst : first < b.lines.length := Nat.lt_trans hlt hlast
  have hlength : first ≤ (b.lines.take last).length := by
    rw [List.length_take_of_le (Nat.le_of_lt hlast)]
    exact Nat.le_of_lt hlt
  have hdrop : (b.lines.take last).drop first = b.line first :: (b.lines.take last).drop (first + 1) := by
    conv => lhs; rw [take_around hfirst hlt]
    exact List.drop_left' (List.length_take_of_le (Nat.le_of_lt hfirst))
  rw [linesIn, take_succ_lines hlast, List.drop_append_of_le_length hlength, hdrop]

theorem line_mem_linesIn (hle : first ≤ n) (hle' : n ≤ last) (hlast : last < b.lines.length) :
    b.line n ∈ linesIn b.lines first last := by
  have hn : n < b.lines.length := Nat.lt_of_le_of_lt hle' hlast
  rw [line, List.getElem?_eq_getElem hn, Option.getD_some, linesIn]
  apply List.mem_of_getElem? (i := n - first)
  rw [List.getElem?_drop, Nat.add_sub_cancel' hle, List.getElem?_take_of_lt (Nat.lt_succ_of_le hle'),
    List.getElem?_eq_getElem hn]

section

variable (hle : first ≤ last) (hlast : last < b.lines.length)
include hle hlast

theorem clampSelection_ofLines :
    b.clampSelection (.ofLines b.lines first last) = .ofLines b.lines first last := by
  have hnormalized : (Selection.ofLines b.lines first last).normalized = .ofLines b.lines first last := by
    have hbefore (m : Nat) : Position.isBefore ⟨last, m⟩ ⟨first, 0⟩ = false := by
      simp [Position.isBefore, hle]
    exact if_neg (Bool.eq_false_iff.mp (hbefore _))
  have hstart : b.Holds ⟨first, 0⟩ := ⟨Nat.lt_of_le_of_lt hle hlast, Nat.zero_le _⟩
  have hstop : b.Holds ⟨last, b.lineLength last⟩ := ⟨hlast, Nat.le_refl _⟩
  rw [clampSelection, hnormalized]
  exact congrArg₂ Selection.mk (clamp_of_holds hstart) (clamp_of_holds hstop)

theorem textIn_ofLines : b.textIn (.ofLines b.lines first last) = b.linesText first last := by
  have htake : (b.line last).take (b.lines[last]?.getD []).length = b.line last := List.take_length
  rw [textIn, clampSelection_ofLines hle hlast, linesText]
  show (if first = last then ((b.line first).take (b.lines[last]?.getD []).length).drop 0
    else ofLines ((b.line first).drop 0 :: (b.lines.take last).drop (first + 1) ++
      [(b.line last).take (b.lines[last]?.getD []).length])) = _
  rcases Nat.lt_or_eq_of_le hle with hlt | rfl
  · rw [if_neg (Nat.ne_of_lt hlt), linesIn_of_lt hlt hlast, htake, List.drop_zero]
  · rw [if_pos rfl, linesIn_self hlast, htake, List.drop_zero, ofLines, join_singleton]

theorem replace_ofLines (t : Text) : b.replace (.ofLines b.lines first last) t =
    (b.splice first last (Text.lines t) ⟨first + (Text.lines t).length - 1, (Text.lastLine t).length⟩,
      first, first + (Text.lines t).length - 1) := by
  have hdrop : (b.line last).drop (b.lines[last]?.getD []).length = [] := List.drop_length
  rw [replace, clampSelection_ofLines hle hlast]
  simp only [Selection.ofLines, List.take_zero, List.nil_append, hdrop, List.append_nil, Nat.zero_add, ite_self]
  rfl

/-- Whole lines are wrapped in their place: the lines of the wrapped text stand where they stood, and the caret
is at the end of the last one. -/
theorem wrapIn_ofLines (w : Wrapper) : b.wrapIn w (.ofLines b.lines first last) =
    let t := b.linesText first last
    let wrapped := w.wrap t
    let last' := first + (Text.lines wrapped).length - 1
    if t.all isBlank || wrapped = t then (b, .unchanged)
    else (b.splice first last (Text.lines wrapped) ⟨last', (Text.lastLine wrapped).length⟩, .wrapped first last') := by
  rw [wrapIn, textIn_ofLines hle hlast]
  simp only [replace_ofLines hle hlast]

end

end Buffer

end Reflow
