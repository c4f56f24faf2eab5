import Reflow.Proofs.Break.Again
import Reflow.Proofs.Buffer.Checked

/-!
# Checked greedy breaking

Greedy breaking as a loop over places in the text, in which every character and every part of the text that is
looked up must be in it, every difference must not be negative, and the rounds are counted.  With one round for
each character and one more the loop comes to its end, and gives what greedy breaking gives (`greedy?_eq`).
-/

namespace Reflow.Break

def slice? (t : Text) (first last : Nat) : Option Text :=
  if first ≤ last ∧ last ≤ t.length then some ((t.take last).drop first) else none

def firstSpace? (t : Text) : Option Nat :=
  t.findIdx? fun c => c = ' '

def lastSpace? (t : Text) : Option Nat :=
  (firstSpace? t.reverse).map fun i => t.length - 1 - i

/-- The place of the space that ends a line: the last one that keeps it within the width, or else the first one
after that. -/
def lineEnd? (t : Text) (width offset : Nat) : Option (Option Nat) := do
  let limit := offset + width
  match lastSpace? (← slice? t offset (limit + 1)) with
  | some i => return some (i + offset)
  | none => return (firstSpace? (← slice? t limit t.length)).map fun i => i + limit

/-- The lines from a place on, in at most the given number of rounds. -/
def fillFrom? (t : Text) (width : Nat) : Nat → Nat → Option (List Text)
  | 0, _ => none
  | rounds + 1, offset => do
    if width < (← minus? t.length offset) then
      if (← t[offset]?) = ' ' then fillFrom? t width rounds (offset + 1)
      else
        match ← lineEnd? t width offset with
        | some split => return (← slice? t offset split) :: (← fillFrom? t width rounds (split + 1))
        | none => return [← slice? t offset t.length]
    else return [← slice? t offset t.length]

def greedy? (rounds : Nat) (t : Text) (width : Nat) : Option (List Text) :=
  (fillFrom? t (max width 1) rounds 0).map Text.dropTrailingEmpty

variable {t line rest : Text} {width offset i : Nat}

theorem slice?_of_le {first last : Nat} (h : first ≤ last) (h' : last ≤ t.length) :
    slice? t first last = some ((t.take last).drop first) :=
  if_pos ⟨h, h'⟩

/-! ## Spaces -/

theorem firstSpace?_eq_none_iff : firstSpace? t = none ↔ ' ' ∉ t := by
  simp only [firstSpace?, List.findIdx?_eq_none_iff, decide_eq_false_iff_not]
  exact ⟨fun h hmem => h ' ' hmem rfl, fun h c hc heq => h (heq ▸ hc)⟩

theorem exists_of_firstSpace? (h : firstSpace? t = some i) :
    ∃ line rest, t = line ++ ' ' :: rest ∧ line.length = i ∧ ' ' ∉ line := by
  obtain ⟨hlt, hspace, hfirst⟩ := List.findIdx?_eq_some_iff_getElem.mp h
  refine ⟨t.take i, t.drop (i + 1), ?_, List.length_take_of_le hlt.le, fun hmem => ?_⟩
  · rw [← of_decide_eq_true hspace, List.getElem_cons_drop, List.take_append_drop]
  · obtain ⟨j, hj, heq⟩ := List.mem_take_iff_getElem.mp hmem
    exact hfirst j (by omega) (decide_eq_true heq)

theorem lastSpace?_eq_none_iff : lastSpace? t = none ↔ ' ' ∉ t := by
  rw [lastSpace?, Option.map_eq_none_iff, firstSpace?_eq_none_iff, List.mem_reverse]

theorem exists_of_lastSpace? (h : lastSpace? t = some i) :
    ∃ line rest, t = line ++ ' ' :: rest ∧ line.length = i ∧ ' ' ∉ rest := by
  obtain ⟨j, hj, rfl⟩ := Option.map_eq_some_iff.mp h
  obtain ⟨rest, line, hsplit, rfl, hrest⟩ := exists_of_firstSpace? hj
  have ht : t = line.reverse ++ ' ' :: rest.reverse := by
    rw [← List.reverse_reverse t, hsplit]
    simp
  refine ⟨line.reverse, rest.reverse, ht, ?_, by simpa using hrest⟩
  rw [ht, List.length_append, List.length_cons, List.length_reverse, List.length_reverse]
  omega

/-! ## The end of a line -/

theorem endsLine_of_lastSpace? (hlength : width < t.length) (h : lastSpace? (t.take (width + 1)) = some i) :
    ∃ line rest, t = line ++ ' ' :: rest ∧ line.length = i ∧ EndsLine width line rest := by
  obtain ⟨line, rest, htake, rfl, hrest⟩ := exists_of_lastSpace? h
  have hcount := congrArg List.length htake
  rw [List.length_take_of_le hlength, List.length_append, List.length_cons] at hcount
  refine ⟨line, rest ++ t.drop (width + 1), ?_, rfl, .inl ⟨by omega, ?_⟩⟩
  · have := List.take_append_drop (width + 1) t
    rw [htake] at this
    simpa using this.symm
  · rwa [List.take_append_of_le_length (by omega), List.take_of_length_le (by omega)]

theorem endsLine_of_firstSpace? (hlength : width < t.length) (hnone : ' ' ∉ t.take (width + 1))
    (h : firstSpace? (t.drop width) = some i) :
    ∃ line rest, t = line ++ ' ' :: rest ∧ line.length = i + width ∧ EndsLine width line rest := by
  obtain ⟨more, rest, hdrop, rfl, hmore⟩ := exists_of_firstSpace? h
  have hwidth : (t.take width).length = width := List.length_take_of_le hlength.le
  have htake : ' ' ∉ t.take width := fun hmem => hnone ((List.take_prefix_take_left (Nat.le_succ width)).mem hmem)
  have hne : more ≠ [] := by
    -- the first space would be within the width
    rintro rfl
    refine hnone ?_
    rw [List.take_add, hdrop]
    simp
  refine ⟨t.take width ++ more, rest, ?_, ?_, .inr ⟨?_, ?_⟩⟩
  · rw [List.append_assoc, ← hdrop, List.take_append_drop]
  · rw [List.length_append, hwidth, Nat.add_comm]
  · rw [List.length_append, hwidth]
    exact Nat.lt_add_of_pos_right (List.length_pos_of_ne_nil hne)
  · rw [List.mem_append, not_or]
    exact ⟨htake, hmore⟩

theorem lineEnd?_eq (h : offset ≤ t.length) (hlt : width < t.length - offset) :
    lineEnd? t width offset = some ((cutLine? width (t.drop offset)).map fun cut => offset + cut.1.length) := by
  have hwindow : slice? t offset (offset + width + 1) = some ((t.drop offset).take (width + 1)) := by
    rw [slice?_of_le (by omega) (by omega), List.drop_take, Nat.add_assoc, Nat.add_sub_cancel_left]
  have hafter : slice? t (offset + width) t.length = some ((t.drop offset).drop width) := by
    rw [slice?_of_le (by omega) (Nat.le_refl _), List.take_length, List.drop_drop]
  have hlength : width < (t.drop offset).length := by rwa [List.length_drop]
  simp only [lineEnd?, hwindow, hafter, Option.bind_eq_bind, Option.bind_some]
  generalize t.drop offset = u at hlength ⊢
  cases hlast : lastSpace? (u.take (width + 1)) with
  | some i =>
    obtain ⟨line, rest, rfl, rfl, hends⟩ := endsLine_of_lastSpace? hlength hlast
    rw [hends.cutLine?]
    simp [Nat.add_comm]
  | none =>
    rw [lastSpace?_eq_none_iff] at hlast
    cases hfirst : firstSpace? (u.drop width) with
    | some j =>
      obtain ⟨line, rest, rfl, hline, hends⟩ := endsLine_of_firstSpace? hlength hlast hfirst
      rw [hends.cutLine?]
      simp only [Option.map_some, hline]
      congr 2
      omega
    | none =>
      rw [firstSpace?_eq_none_iff] at hfirst
      have hnone : ' ' ∉ u := by
        rw [← List.take_append_drop width u, List.mem_append, not_or]
        exact ⟨fun hmem => hlast ((List.take_prefix_take_left (Nat.le_succ width)).mem hmem), hfirst⟩
      rw [cutLine?_eq_none_iff.mpr hnone]
      rfl

/-! ## The loop -/

theorem slice?_line (h : t.drop offset = line ++ ' ' :: rest) :
    slice? t offset (offset + line.length) = some line ∧ t.drop (offset + line.length + 1) = rest ∧
    t.length = offset + line.length + 1 + rest.length := by
  have hcount := congrArg List.length h
  rw [List.length_drop, List.length_append, List.length_cons] at hcount
  refine ⟨?_, ?_, by omega⟩
  · rw [slice?_of_le (Nat.le_add_right _ _) (by omega), List.drop_take, Nat.add_sub_cancel_left, h, List.take_left]
  · rw [Nat.add_assoc, ← List.drop_drop, h, ← List.drop_drop, List.drop_left]
    rfl

/-- A round for each character that is left and one more are enough. -/
theorem fillFrom?_eq {rounds : Nat} (h : offset ≤ t.length) (hrounds : t.length - offset < rounds) :
    fillFrom? t width rounds offset = some (fill width (t.drop offset)) := by
  induction rounds generalizing offset with
  | zero => exact absurd hrounds (Nat.not_lt_zero _)
  | succ rounds ih =>
    have hlast : slice? t offset t.length = some (t.drop offset) := by
      rw [slice?_of_le h (Nat.le_refl _), List.take_length]
    have hlength : (t.drop offset).length = t.length - offset := List.length_drop
    simp only [fillFrom?, minus?_of_le h, Option.bind_eq_bind, Option.bind_some]
    split
    next hlt =>
      have hoffset : offset < t.length := by omega
      have hcons : t.drop offset = t[offset] :: t.drop (offset + 1) := List.drop_eq_getElem_cons hoffset
      have hlong : width < (t.drop offset).length := by rwa [hlength]
      simp only [List.getElem?_eq_getElem hoffset, Option.bind_some]
      split
      next hspace =>
        rw [hcons, hspace] at hlong ⊢
        rw [ih hoffset (by omega), fill_space hlong]
      next hspace =>
        have hhead : (t.drop offset).head? ≠ some ' ' := by
          rw [hcons, List.head?_cons, ne_eq, Option.some.injEq]
          exact hspace
        rw [lineEnd?_eq h hlt]
        cases hcut : cutLine? width (t.drop offset) with
        | some cut =>
          obtain ⟨line, rest⟩ := cut
          obtain ⟨hline, hrest, hcount⟩ := slice?_line (eq_of_cutLine? hcut)
          have hmore : fillFrom? t width rounds (offset + line.length + 1) = some (fill width rest) := by
            rw [← hrest]
            exact ih (by omega) (by omega)
          simp [hline, hmore, fill_cut hlong hhead hcut]
        | none =>
          simp [hlast, fill_uncut hlong hhead hcut]
    next hshort =>
      rw [hlast, fill_of_le (by omega)]
      rfl

theorem greedy?_eq {rounds : Nat} (h : t.length < rounds) (width : Nat) :
    greedy? rounds t width = some (greedy t width) := by
  rw [greedy?, fillFrom?_eq (Nat.zero_le _) h]
  rfl

theorem greedy_eq_of_greedy? {rounds : Nat} {ls : List Text} (h : t.length < rounds)
    (hloop : greedy? rounds t width = some ls) : greedy t width = ls :=
  Option.some.inj ((greedy?_eq h width).symm.trans hloop)

end Reflow.Break
