import Reflow.Proofs.Text.Split

/-!
# The lines of a text in two parts

The lines of two texts together are the lines of the text that they make up, but for the line at the seam,
which is put together from the last line of the one and the first line of the other (`Text.lines_parted`).
-/

namespace Reflow

theorem total_append {α : Type} (f : α → Nat) (l l' : List α) : total f (l ++ l') = total f l + total f l' := by
  induction l with
  | nil => exact (Nat.zero_add _).symm
  | cons a l ih => rw [List.cons_append, total, total, ih, Nat.add_assoc]

namespace Text

variable {t x y z : Text} {c : Char}

/-- The lines of a text but the last. -/
def upper (t : Text) : List Text :=
  (lines t).dropLast

def lastLine (t : Text) : Text :=
  (lines t).getLastD []

def firstLine (t : Text) : Text :=
  (lines t).headD []

/-- The lines of a text but the first. -/
def lower (t : Text) : List Text :=
  (lines t).tail

theorem lines_eq_lower (t : Text) : lines t = firstLine t :: lower t := by
  obtain ⟨first, rest, h⟩ := List.exists_cons_of_ne_nil (lines_ne_nil (t := t))
  simp [firstLine, lower, h]

theorem lines_eq_upper (t : Text) : lines t = upper t ++ [lastLine t] := by
  have h := List.dropLast_append_getLast (lines_ne_nil (t := t))
  rw [lastLine, List.getLastD_eq_getLast?, List.getLast?_eq_some_getLast lines_ne_nil]
  exact h.symm

variable {ls : List Text} {l : Text}

theorem upper_eq (h : lines t = ls ++ [l]) : upper t = ls ∧ lastLine t = l := by
  simp [upper, lastLine, h]

theorem lower_eq (h : lines t = l :: ls) : lower t = ls ∧ firstLine t = l := by
  simp [lower, firstLine, h]

theorem upper_of_not_mem (h : '\n' ∉ t) : upper t = [] ∧ lastLine t = t :=
  upper_eq (lines_eq_singleton h)

theorem lower_of_not_mem (h : '\n' ∉ t) : lower t = [] ∧ firstLine t = t :=
  lower_eq (lines_eq_singleton h)

theorem upper_append_lf (x z : Text) :
    upper (x ++ '\n' :: z) = lines x ++ upper z ∧ lastLine (x ++ '\n' :: z) = lastLine z := by
  apply upper_eq
  rw [lines_append, lines_eq_upper z, List.append_assoc]

theorem upper_append_of_not_mem (hx : '\n' ∉ x) (z : Text) :
    upper (x ++ '\n' :: z) = x :: upper z ∧ lastLine (x ++ '\n' :: z) = lastLine z := by
  obtain ⟨hupper, hlast⟩ := upper_append_lf x z
  rw [lines_eq_singleton hx, List.singleton_append] at hupper
  exact ⟨hupper, hlast⟩

theorem lower_append_lf (z y : Text) :
    lower (z ++ '\n' :: y) = lower z ++ lines y ∧ firstLine (z ++ '\n' :: y) = firstLine z := by
  apply lower_eq
  rw [lines_append, lines_eq_lower z, List.cons_append]

theorem lines_append_of_not_mem (hx : '\n' ∉ x) (y : Text) : lines (x ++ y) = (x ++ firstLine y) :: lower y := by
  by_cases hy : '\n' ∈ y
  · obtain ⟨a, b, rfl, ha⟩ := List.eq_append_cons_of_mem hy
    obtain ⟨hlower, hfirst⟩ := lower_append_lf a b
    obtain ⟨hlower', hfirst'⟩ := lower_of_not_mem ha
    rw [hlower, hfirst, hlower', hfirst', ← List.append_assoc, lines_append, lines_eq_singleton (by simp [hx, ha])]
    rfl
  · obtain ⟨hlower, hfirst⟩ := lower_of_not_mem hy
    rw [hlower, hfirst, lines_eq_singleton (by simp [hx, hy])]

theorem lines_parted (x y : Text) :
    lines (x ++ y) = upper x ++ (lastLine x ++ firstLine y) :: lower y := by
  by_cases hx : '\n' ∈ x
  · obtain ⟨a, b, rfl, hb⟩ := exists_last_line hx
    obtain ⟨hupper, hlast⟩ := upper_append_lf a b
    obtain ⟨hupper', hlast'⟩ := upper_of_not_mem hb
    rw [hupper, hlast, hupper', hlast', List.append_nil, List.append_assoc, List.cons_append, lines_append,
      lines_append_of_not_mem hb]
  · obtain ⟨hupper, hlast⟩ := upper_of_not_mem hx
    rw [hupper, hlast, lines_append_of_not_mem hx, List.nil_append]

theorem not_mem_of_mem_lines (h : l ∈ lines t) : '\n' ∉ l := fun hfeed =>
  absurd rfl (decide_eq_false_iff_not.mp (not_sep_of_mem_split h '\n' hfeed))

theorem not_mem_lastLine (t : Text) : '\n' ∉ lastLine t := by
  apply not_mem_of_mem_lines (t := t)
  rw [lines_eq_upper]
  exact List.mem_append_right _ (List.mem_singleton_self _)

theorem upper_parted (x z : Text) :
    upper (x ++ z) = upper x ++ upper (lastLine x ++ z) ∧ lastLine (x ++ z) = lastLine (lastLine x ++ z) := by
  apply upper_eq
  rw [lines_parted x z, List.append_assoc, ← lines_eq_upper, lines_append_of_not_mem]
  exact not_mem_lastLine x

theorem upper_append (hz : '\n' ∉ z) : upper (x ++ z) = upper x ∧ lastLine (x ++ z) = lastLine x ++ z := by
  obtain ⟨hupper, hlast⟩ := upper_parted x z
  obtain ⟨hupper', hlast'⟩ := upper_of_not_mem (t := lastLine x ++ z) (by simp [not_mem_lastLine, hz])
  rw [hupper, hlast, hupper', hlast', List.append_nil]
  exact ⟨rfl, rfl⟩

theorem lower_cons (hc : c ≠ '\n') : lower (c :: t) = lower t ∧ firstLine (c :: t) = c :: firstLine t := by
  apply lower_eq
  exact lines_append_of_not_mem (x := [c]) (fun h => hc (List.mem_singleton.mp h).symm) t

@[elab_as_elim]
theorem lines_induction {motive : Text → Prop} (last : ∀ t, '\n' ∉ t → motive t)
    (cons : ∀ x y, '\n' ∉ x → motive y → motive (x ++ '\n' :: y)) (t : Text) : motive t := by
  generalize hn : t.length = n
  induction n using Nat.strong_induction_on generalizing t with
  | _ n ih =>
    by_cases hfeed : '\n' ∈ t
    · obtain ⟨x, y, rfl, hx⟩ := List.eq_append_cons_of_mem hfeed
      refine cons x y hx (ih y.length ?_ y rfl)
      rw [← hn, List.length_append, List.length_cons]
      omega
    · exact last t hfeed

theorem length_lines (t : Text) : (lines t).length = t.count '\n' + 1 := by
  induction t with
  | nil => rfl
  | cons c t ih =>
    by_cases hc : c = '\n'
    · rw [hc, ← List.nil_append ('\n' :: t), lines_append, List.length_append, ih, List.nil_append, List.count_cons_self]
      exact Nat.add_comm 1 _
    · obtain ⟨hlower, -⟩ := lower_cons (t := t) hc
      rw [lines_eq_lower, hlower, List.count_cons_of_ne hc, ← ih, lines_eq_lower t]
      rfl

theorem length_upper (t : Text) : (upper t).length = t.count '\n' := by
  have h := length_lines t
  rw [lines_eq_upper, List.length_append] at h
  exact Nat.add_right_cancel h

theorem ofLines_lines (t : Text) : ofLines (lines t) = t :=
  join_splitOn

/-- A text that is put together from lines may be parted within any of them. -/
theorem ofLines_seam (front : List Text) (u v : Text) (back : List Text) :
    ofLines (front ++ (u ++ v) :: back) = ofLines (front ++ [u]) ++ ofLines (v :: back) := by
  induction front with
  | nil =>
    rw [List.nil_append, List.nil_append, ofLines, ofLines, ofLines, join_singleton]
    by_cases hback : back = []
    · rw [hback, join_singleton, join_singleton]
    · rw [join_cons hback, join_cons hback, List.append_assoc]
  | cons l front ih =>
    have hne : front ++ (u ++ v) :: back ≠ [] := by simp
    have hne' : front ++ [u] ≠ [] := by simp
    rw [ofLines, ofLines] at ih
    rw [List.cons_append, List.cons_append, ofLines, ofLines, join_cons hne, join_cons hne', ih, List.append_assoc,
      List.cons_append]

theorem ofLines_append_lines (front back : List Text) (t : Text) :
    ofLines (front ++ lines t ++ back) = ofLines (front ++ t :: back) := by
  have hback : ofLines (lines t ++ back) = ofLines (t :: back) := by
    have hseam := ofLines_seam (upper t) (lastLine t) [] back
    have hseam' := ofLines_seam [] t [] back
    rw [List.append_nil, ← lines_eq_upper, ofLines_lines] at hseam
    rw [List.append_nil, List.nil_append, List.nil_append, ofLines, ofLines, join_singleton] at hseam'
    rw [lines_eq_upper t, List.append_assoc, List.singleton_append, hseam]
    exact hseam'.symm
  by_cases hfront : front = []
  · rw [hfront]
    exact hback
  · rw [List.append_assoc, ofLines, join_append hfront (by simp [lines_ne_nil]), ofLines,
      join_append hfront (List.cons_ne_nil _ _)]
    exact congrArg (fun u => join '\n' front ++ '\n' :: u) hback

theorem lines_inj {u : Text} : lines t = lines u ↔ t = u :=
  ⟨fun h => by rw [← ofLines_lines t, h, ofLines_lines], fun h => h ▸ rfl⟩

theorem exists_mem_lines (hc : c ∈ t) (hne : c ≠ '\n') : ∃ l ∈ lines t, c ∈ l := by
  have h : c ∈ ofLines (lines t) := by
    rw [ofLines_lines]
    exact hc
  exact (mem_join h).resolve_left hne

theorem length_ofLines_append (ls : List Text) (l : Text) :
    (ofLines (ls ++ [l])).length = total (fun line => line.length + 1) ls + l.length := by
  induction ls with
  | nil => simp [ofLines, total]
  | cons line ls ih =>
    have hne : ls ++ [l] ≠ [] := by simp
    rw [ofLines] at ih
    rw [List.cons_append, ofLines, join_cons hne, List.length_append, List.length_cons, ih, total]
    omega

theorem total_upper (t : Text) : total (fun line => line.length + 1) (upper t) + (lastLine t).length = t.length := by
  rw [← length_ofLines_append, ← lines_eq_upper, ofLines_lines]

end Text

end Reflow
