import Reflow.Text.Basic

/-!
# Greedy line breaking

Each line takes as much of the text as fits in the width and ends at a space.  A word that is
longer than the width stays whole, and its line ends at the first space after it.
-/

namespace Reflow.Break

/-- Cuts a text at the last space among its first `n` characters. -/
def cutLast? : Nat → Text → Option (Text × Text)
  | 0, _ => none
  | _, [] => none
  | n + 1, c :: t =>
    match cutLast? n t with
    | some (line, rest) => some (c :: line, rest)
    | none => if c = ' ' then some ([], t) else none

def cutFirst? : Text → Option (Text × Text)
  | [] => none
  | c :: t => if c = ' ' then some ([], t) else (cutFirst? t).map fun cut => (c :: cut.1, cut.2)

/-- Cuts off the first line: at the last space that keeps it within the width, or else at the first
space of all. -/
def cutLine? (width : Nat) (t : Text) : Option (Text × Text) :=
  (cutLast? (width + 1) t).or (cutFirst? t)

theorem eq_of_cutLast? {n : Nat} {t line rest : Text} (h : cutLast? n t = some (line, rest)) :
    t = line ++ ' ' :: rest := by
  induction n, t using cutLast?.induct generalizing line with
  | case1 t => simp [cutLast?] at h
  | case2 n => cases n <;> simp [cutLast?] at h
  | case3 n c t line' rest' hcut ih =>
    simp only [cutLast?, hcut, Option.some.injEq, Prod.mk.injEq] at h
    obtain ⟨rfl, rfl⟩ := h
    simp [← ih hcut]
  | case4 n t hcut ih =>
    simp only [cutLast?, hcut, if_true, Option.some.injEq, Prod.mk.injEq] at h
    obtain ⟨rfl, rfl⟩ := h
    rfl
  | case5 n c t hcut hc ih => simp [cutLast?, hcut, hc] at h

theorem eq_of_cutFirst? {t line rest : Text} (h : cutFirst? t = some (line, rest)) :
    t = line ++ ' ' :: rest := by
  induction t generalizing line with
  | nil => simp [cutFirst?] at h
  | cons c t ih =>
    by_cases hc : c = ' '
    · simp only [cutFirst?, hc, if_true, Option.some.injEq, Prod.mk.injEq] at h
      obtain ⟨rfl, rfl⟩ := h
      simp [hc]
    · simp only [cutFirst?, hc, if_false, Option.map_eq_some_iff, Prod.mk.injEq] at h
      obtain ⟨⟨l, r⟩, hcut, rfl, rfl⟩ := h
      simp [← ih hcut]

theorem eq_of_cutLine? {width : Nat} {t line rest : Text}
    (h : cutLine? width t = some (line, rest)) : t = line ++ ' ' :: rest := by
  rcases Option.or_eq_some_iff.mp h with h | ⟨_, h⟩
  · exact eq_of_cutLast? h
  · exact eq_of_cutFirst? h

/-- The lines of a text for a positive width, with spaces dropped at the start of a line that has to
be cut. -/
def fill (width : Nat) (t : Text) : List Text :=
  if t.length ≤ width then [t]
  else
    match t with
    | ' ' :: rest => fill width rest
    | t =>
      match _h : cutLine? width t with
      | some (line, rest) => line :: fill width rest
      | none => [t]
termination_by t.length
decreasing_by
  · simp
  · have := congrArg List.length (eq_of_cutLine? _h)
    simp at this
    omega

/-- Breaks a text greedily into lines of at most `width` columns; empty lines at the end are
dropped. -/
def greedy (t : Text) (width : Nat) : List Text :=
  Text.dropTrailingEmpty (fill (max width 1) t)

end Reflow.Break
