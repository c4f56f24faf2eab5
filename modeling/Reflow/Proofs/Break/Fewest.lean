import Reflow.Proofs.Break.Filled
import Reflow.Proofs.Break.Optimal

/-!
# The fewest lines

Words with single spaces between them are broken greedily into rows that fit or are a single word, and into no more
rows than any such partition of the words has (`greedy_fewest`).

Greedy breaking stays ahead.  If the words that it has left come at the end of those that another partition has left,
then they still do when both have put down their next row (`Full.suffix`): the row of the other partition cannot reach
past the greedy one, which has no room for the next word.
-/

namespace Reflow.Break

variable {width : Nat} {word : Text} {words row next other more : List Text} {rows others : List (List Text)}

/-- A row whose line fits in the width, or that is a single word. -/
def Fitting (width : Nat) (row : List Text) : Prop :=
  (Text.join ' ' row).length ≤ width ∨ row.length = 1

instance (width : Nat) (row : List Text) : Decidable (Fitting width row) :=
  inferInstanceAs (Decidable (_ ∨ _))

/-! ## The words of a row -/

theorem firstWord_join_cons (hne : word ≠ []) (hspace : ' ' ∉ word) (words : List Text) :
    firstWord (Text.join ' ' (word :: words)) = word := by
  rw [firstWord, spaceWords_join, List.flatMap_cons, spaceWords_of_unbroken hne hspace, List.singleton_append,
    List.headD_cons]

theorem length_le_length_join_cons (word : Text) (words : List Text) :
    word.length ≤ (Text.join ' ' (word :: words)).length := by
  rcases eq_or_ne words [] with rfl | hwords
  · rw [Text.join_singleton]
  · rw [length_join_cons word hwords]
    omega

theorem length_eq_one_of_unbroken (hrow : row ≠ []) (hwords : ∀ word ∈ row, ' ' ∉ word)
    (h : ' ' ∉ Text.join ' ' row) : row.length = 1 := by
  have hsplit : ∀ c ∈ Text.join ' ' row, decide (c = ' ') = false := fun c hc =>
    decide_eq_false fun heq => h (heq ▸ hc)
  rw [← Text.splitOn_join hrow hwords, Text.splitOn, Text.split_eq_singleton hsplit]
  rfl

/-! ## Greedy breaking stays ahead -/

/-- No row that fits reaches past a full one: it would hold the next word as well. -/
theorem Full.suffix (hfull : Full width (Text.join ' ' row) (Text.join ' ' (word :: next))) (hrow : row ≠ [])
    (hne : word ≠ []) (hspace : ' ' ∉ word) (hother : Fitting width other)
    (h : row ++ word :: more <:+ other ++ others.flatten) : word :: more <:+ others.flatten := by
  rw [Full, firstWord_join_cons hne hspace] at hfull
  obtain ⟨front, hfront⟩ := h
  have hmore : word :: more <:+ other ++ others.flatten := ⟨front ++ row, by rw [← hfront, List.append_assoc]⟩
  rcases List.suffix_or_suffix_of_suffix hmore (List.suffix_append other _) with hsuffix | ⟨x, hx⟩
  · exact hsuffix
  cases x with
  | nil => exact ⟨[], hx.symm⟩
  | cons first x =>
    -- the other row ends with the full one, the next word and perhaps more
    obtain ⟨rfl, rfl⟩ := List.cons.inj hx
    have hwhole : front ++ (row ++ first :: x) ++ others.flatten = other ++ others.flatten := by
      rw [← hfront]
      simp
    have hrows := List.append_cancel_right hwhole
    have hlength : (Text.join ' ' (row ++ first :: x)).length =
        (Text.join ' ' row).length + 1 + (Text.join ' ' (first :: x)).length := by
      rw [Text.join_append hrow (List.cons_ne_nil _ _), List.length_append, List.length_cons]
      omega
    have hfirst := length_le_length_join_cons first x
    have hlonger : row ++ first :: x ≠ [] := by simp
    have hle := length_join_le_append front hlonger
    rw [hrows] at hle
    rcases hother with hfits | hsingle
    · omega
    · have hpos := List.length_pos_of_ne_nil hrow
      rw [← hrows, List.length_append, List.length_append, List.length_cons] at hsingle
      omega

/-- Full rows whose words come at the end of the words of rows that fit are no more than those. -/
theorem length_le_of_full (hwords : ∀ row ∈ rows, ∀ word ∈ row, word ≠ [] ∧ ' ' ∉ word)
    (hrows : ∀ row ∈ rows, row ≠ []) (hfull : (linesOf rows).IsChain (Full width))
    (hothers : ∀ row ∈ others, Fitting width row) (h : rows.flatten <:+ others.flatten) :
    rows.length ≤ others.length := by
  induction others generalizing rows with
  | nil =>
    rw [List.flatten_nil, List.suffix_nil, List.flatten_eq_nil_iff] at h
    rw [List.eq_nil_iff_forall_not_mem.mpr fun row hrow => hrows row hrow (h row hrow)]
  | cons other others ih =>
    rw [List.forall_mem_cons] at hothers
    cases rows with
    | nil => exact Nat.zero_le _
    | cons row rows =>
      rw [List.forall_mem_cons] at hwords hrows
      rw [linesOf, List.map_cons] at hfull
      refine Nat.succ_le_succ (ih hwords.2 hrows.2 hfull.tail hothers.2 ?_)
      cases rows with
      | nil => exact List.nil_suffix
      | cons next rows =>
        obtain ⟨word, next, rfl⟩ := List.exists_cons_of_ne_nil (hrows.2 next List.mem_cons_self)
        obtain ⟨hne, hspace⟩ := hwords.2 _ List.mem_cons_self word List.mem_cons_self
        rw [List.map_cons, List.isChain_cons_cons] at hfull
        exact hfull.1.suffix hrows.1 hne hspace hothers.1 h

/-! ## Single spaces -/

theorem exists_rows_greedy (hwords : ∀ word ∈ words, word ≠ [] ∧ ' ' ∉ word) (width : Nat) :
    ∃ rows, Partition words rows ∧ greedy (Text.join ' ' words) width = linesOf rows ∧
      (∀ row ∈ rows, Fitting (max width 1) row) ∧ (linesOf rows).IsChain (Full (max width 1)) := by
  rcases eq_or_ne words [] with rfl | hne
  · refine ⟨[], ⟨rfl, by simp⟩, ?_, by simp, .nil⟩
    rw [Text.join_nil, greedy, fill_of_le (Nat.zero_le _)]
    rfl
  obtain ⟨ht, hend, hsplit⟩ := join_of_words hne hwords
  obtain ⟨rows, hrows, hflat, hrow⟩ := (breaks_fill (max width 1) _).exists_groups hsplit fun word hword =>
    (hwords word hword).1
  refine ⟨rows, ⟨hflat, hrow⟩, ?_, fun row hmem => ?_, ?_⟩
  · rw [greedy_eq_fill ht hend, hrows, linesOf]
  · have hline : Text.join ' ' row ∈ fill (max width 1) (Text.join ' ' words) := by
      rw [hrows]
      exact List.mem_map_of_mem hmem
    refine (fits_or_unbroken_fill _ _ _ hline).imp_right (length_eq_one_of_unbroken (hrow row hmem) ?_)
    intro word hword
    exact (hwords word (hflat ▸ List.mem_flatten_of_mem hmem hword)).2
  · rw [linesOf, ← hrows]
    exact isChain_fill _ _

/-- Greedy breaking of words with single spaces between them gives the lines of a partition of the words whose rows
fit in the width or are single words, and every such partition has at least as many rows. -/
theorem greedy_fewest (hwords : ∀ word ∈ words, word ≠ [] ∧ ' ' ∉ word) (width : Nat) :
    let W := max width 1
    (∃ rows, Partition words rows ∧ (∀ row ∈ rows, Fitting W row) ∧
      greedy (Text.join ' ' words) width = linesOf rows) ∧
    ∀ others, Partition words others → (∀ row ∈ others, Fitting W row) →
      (greedy (Text.join ' ' words) width).length ≤ others.length := by
  intro W
  obtain ⟨rows, hrows, hgreedy, hfits, hfull⟩ := exists_rows_greedy hwords width
  refine ⟨⟨rows, hrows, hfits, hgreedy⟩, fun others hothers hfits' => ?_⟩
  have hproper : ∀ row ∈ rows, ∀ word ∈ row, word ≠ [] ∧ ' ' ∉ word := fun row hrow word hword =>
    hwords word (hrows.flatten ▸ List.mem_flatten_of_mem hrow hword)
  rw [hgreedy, linesOf, List.length_map]
  refine length_le_of_full hproper hrows.ne_nil hfull hfits' ?_
  rw [hrows.flatten, hothers.flatten]

theorem greedy_fewest_overlong :
    let words := ["a".toList, "supercalifragilistic".toList, "word".toList, "or".toList, "two".toList]
    let others := [["a".toList], ["supercalifragilistic".toList], ["word".toList], ["or".toList, "two".toList]]
    (∀ word ∈ words, word ≠ [] ∧ ' ' ∉ word) ∧ Partition words others ∧ (∀ row ∈ others, Fitting 7 row) ∧
    greedy (Text.join ' ' words) 7 =
      ["a".toList, "supercalifragilistic".toList, "word or".toList, "two".toList] ∧
    (greedy (Text.join ' ' words) 7).length ≤ others.length := by
  intro words others
  have hwords : ∀ word ∈ words, word ≠ [] ∧ ' ' ∉ word := by decide
  have hothers : Partition words others := ⟨by decide, by decide⟩
  have hfits : ∀ row ∈ others, Fitting 7 row := by decide
  obtain ⟨-, hle⟩ := greedy_fewest hwords 7
  exact ⟨hwords, hothers, hfits, by cbv, hle others hothers hfits⟩

end Reflow.Break
