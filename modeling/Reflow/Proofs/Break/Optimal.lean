import Mathlib
import Reflow.Proofs.Break.Lines
import Reflow.Proofs.Text.Strip

/-!
# Least raggedness

Lines are charged from the first to the last (`raggedness`), and a text is laid out by a partition of its
words into rows.  Ragged breaking finds a partition that no other one is cheaper than (`ragged_least`).

A line that is too wide forgets what the lines before it cost, so costs do not add up.  They grow with the
cost of the lines before all the same (`lineCost_mono`): it is enough to keep the best layout of the words
before each word.  The search for the last row stops at the first one that is too wide, and all rows that
it leaves out are wider (`cost_search_le`).
-/

namespace Reflow.Break

/-! ## Partitions and their cost -/

/-- The cost of some lines, from the first to the last.  A line that is too wide sets it to `10 ^ 10` for each
column that it is too wide by, and any other line adds the square of the space at its end, up to the greatest
cost. -/
def raggedness (width : Nat) (lines : List Text) : Nat :=
  lines.foldl (fun before line =>
    if width < line.length then 10 ^ 10 * (line.length - width)
    else min (before + (width - line.length) ^ 2) (2 ^ 128 - 1)) 0

def linesOf (rows : List (List Text)) : List Text :=
  rows.map (Text.join ' ')

/-- The rows make up the words, one after the other, and none of them is empty. -/
structure Partition (words : List Text) (rows : List (List Text)) : Prop where
  flatten : rows.flatten = words
  ne_nil : ∀ row ∈ rows, row ≠ []

variable {width before before' : Nat} {words row : List Text} {rows : List (List Text)} {l : Layout}

theorem Covers.partition (h : Covers l words) : Partition words l.lines.reverse :=
  ⟨h.1, fun row hrow => h.2 row (List.mem_reverse.mp hrow)⟩

theorem exists_concat_of_append {front last : List Text} {word : Text} (hlast : last ≠ [])
    (h : front ++ last = words ++ [word]) : ∃ init, last = init ++ [word] ∧ front ++ init = words := by
  have hend := congrArg List.getLast? h
  rw [List.getLast?_append_of_ne_nil _ hlast, List.getLast?_concat] at hend
  obtain ⟨init, rfl⟩ := List.getLast?_eq_some_iff.mp hend
  rw [← List.append_assoc] at h
  exact ⟨init, rfl, List.append_cancel_right h⟩

namespace Partition

theorem exists_last (h : Partition words rows) (hne : words ≠ []) :
    ∃ front row, rows = front ++ [row] ∧ Partition front.flatten front ∧ row ≠ [] ∧
      front.flatten ++ row = words := by
  obtain ⟨hflat, hrows⟩ := h
  rcases List.eq_nil_or_concat rows with rfl | ⟨front, row, rfl⟩
  · exact absurd hflat.symm hne
  · rw [List.concat_eq_append] at hflat hrows ⊢
    rw [List.flatten_append, List.flatten_singleton] at hflat
    refine ⟨front, row, rfl, ⟨rfl, fun r hr => hrows r (List.mem_append_left _ hr)⟩, ?_, hflat⟩
    exact hrows row (List.mem_append_right _ (List.mem_singleton_self row))

theorem join_linesOf (h : Partition words rows) : Text.join ' ' (linesOf rows) = Text.join ' ' words := by
  rw [linesOf, Text.join_map_join h.ne_nil, h.flatten]

end Partition

theorem raggedness_append (width : Nat) (rows : List (List Text)) (row : List Text) :
    raggedness width (linesOf (rows ++ [row])) =
      lineCost width (raggedness width (linesOf rows)) (Text.join ' ' row).length := by
  rw [raggedness, linesOf, List.map_append, List.foldl_append, lineCost, ← Nat.pow_two]
  rfl

theorem lineCost_mono (h : before ≤ before') (length : Nat) :
    lineCost width before length ≤ lineCost width before' length := by
  unfold lineCost
  split
  · exact Nat.le_refl _
  · omega

/-- Among lines that are too wide the wider one is dearer, whatever comes before them. -/
theorem lineCost_le_of_wide {length length' : Nat} (hwide : width < length) (hle : length ≤ length') :
    lineCost width before length ≤ lineCost width before' length' := by
  rw [lineCost, if_pos hwide, lineCost, if_pos (Nat.lt_of_lt_of_le hwide hle)]
  exact Nat.mul_le_mul_left _ (Nat.sub_le_sub_right hle width)

theorem length_join_cons (word : Text) (hrow : row ≠ []) :
    (Text.join ' ' (word :: row)).length = word.length + 1 + (Text.join ' ' row).length := by
  rw [Text.join_cons hrow, List.length_append, List.length_cons]
  omega

theorem length_join_le_append (front : List Text) (hrow : row ≠ []) :
    (Text.join ' ' row).length ≤ (Text.join ' ' (front ++ row)).length := by
  induction front with
  | nil => exact Nat.le_refl _
  | cons word front ih =>
    rw [List.cons_append, length_join_cons word (by simp [hrow])]
    omega

/-! ## The best layout -/

/-- The cost of a layout is that of its lines. -/
def Priced (width : Nat) (l : Layout) : Prop :=
  l.cost = raggedness width (linesOf l.lines.reverse)

/-- The layout has the given words, its cost is that of its lines, and no partition of the words is
cheaper. -/
structure Least (width : Nat) (l : Layout) (words : List Text) : Prop where
  covers : Covers l words
  priced : Priced width l
  cost_le : ∀ rows, Partition words rows → l.cost ≤ raggedness width (linesOf rows)

/-- Each step carries a best layout of the words before it. -/
def Optimal (width : Nat) : List Step → Prop
  | [] => True
  | step :: steps => Least width step.before (wordsOf steps) ∧ Optimal width steps

variable {step : Step} {steps : List Step} {best : Layout}

theorem Optimal.sound (h : Optimal width steps) : Sound steps := by
  induction steps with
  | nil => trivial
  | cons step steps ih => exact ⟨h.1.covers, ih h.2⟩

/-! ## The search for the last row -/

/-- The cheaper one of two layouts, which is the first one if they cost the same. -/
def cheaper (l best : Layout) : Layout :=
  if l.cost ≤ best.cost then l else best

theorem cheaper_cases (l best : Layout) : cheaper l best = l ∨ cheaper l best = best := by
  unfold cheaper
  split
  · exact .inl rfl
  · exact .inr rfl

theorem cost_cheaper_le_left (l best : Layout) : (cheaper l best).cost ≤ l.cost := by
  unfold cheaper
  split <;> omega

theorem cost_cheaper_le_right (l best : Layout) : (cheaper l best).cost ≤ best.cost := by
  unfold cheaper
  split <;> omega

/-- The layout with a last row after the best layout of the words before it, which the step carries. -/
def Step.layoutWith (width : Nat) (step : Step) (row : List Text) : Layout :=
  ⟨lineCost width step.before.cost (Text.join ' ' row).length, row :: step.before.lines⟩

/-- The best layout that ends with the row or a longer one, where `best` is the best one so far; rows that
are longer than one that is too wide are not tried. -/
def search (width : Nat) (steps : List Step) (row : List Text) (best : Layout) : Layout :=
  if width < (Text.join ' ' row).length then best
  else bestFrom width steps row (Text.join ' ' row).length best

theorem search_cons (width : Nat) (step : Step) (steps : List Step) (hrow : row ≠ []) (best : Layout) :
    search width (step :: steps) row best =
      if width < (Text.join ' ' row).length then best
      else search width steps (step.word :: row) (cheaper (step.layoutWith width (step.word :: row)) best) := by
  rw [search, bestFrom, ← length_join_cons _ hrow]
  rfl

theorem bestEnding_eq (width : Nat) (step : Step) (steps : List Step) :
    bestEnding width step steps = search width steps [step.word] (step.layoutWith width [step.word]) := by
  rw [bestEnding, search, Step.layoutWith, Text.join_singleton]

theorem priced_layoutWith (h : Least width step.before words) (row : List Text) :
    Priced width (step.layoutWith width row) := by
  rw [Priced, Step.layoutWith, List.reverse_cons, raggedness_append, ← h.priced]

theorem priced_search (hsteps : Optimal width steps) (hrow : row ≠ []) (hbest : Priced width best) :
    Priced width (search width steps row best) := by
  induction steps generalizing row best with
  | nil =>
    unfold search
    split <;> exact hbest
  | cons step steps ih =>
    obtain ⟨hbefore, hsteps⟩ := hsteps
    rw [search_cons _ _ _ hrow]
    split
    · exact hbest
    · apply ih hsteps (List.cons_ne_nil _ _)
      rcases cheaper_cases (step.layoutWith width (step.word :: row)) best with h | h
      · rw [h]
        exact priced_layoutWith hbefore _
      · rw [h]
        exact hbest

theorem cost_search_le_best (steps : List Step) (hrow : row ≠ []) (best : Layout) :
    (search width steps row best).cost ≤ best.cost := by
  induction steps generalizing row best with
  | nil =>
    unfold search
    split <;> exact Nat.le_refl _
  | cons step steps ih =>
    rw [search_cons _ _ _ hrow]
    split
    · exact Nat.le_refl _
    · exact Nat.le_trans (ih (List.cons_ne_nil _ _) _) (cost_cheaper_le_right _ _)

/-- A last row after a partition of the words before it costs no less than after the best layout of them. -/
theorem cost_layoutWith_le (hbefore : Least width step.before words) {front : List (List Text)}
    (hfront : Partition words front) (row : List Text) :
    (step.layoutWith width row).cost ≤ raggedness width (linesOf (front ++ [row])) := by
  rw [raggedness_append]
  exact lineCost_mono (hbefore.cost_le front hfront) _

/-- A row that is too wide costs no more than a longer one at its place. -/
theorem cost_layoutWith_le_of_wide (hrow : row ≠ []) (hwide : width < (Text.join ' ' row).length)
    (front : List (List Text)) (more : List Text) :
    (step.layoutWith width row).cost ≤ raggedness width (linesOf (front ++ [more ++ row])) := by
  rw [raggedness_append]
  exact lineCost_le_of_wide hwide (length_join_le_append more hrow)

/-- The search finds nothing dearer than any layout that ends with the row it starts with, or with a longer
one.  Those that it does not come to are wider than one that is too wide. -/
theorem cost_search_le (hsteps : Optimal width (step :: steps)) (hrow : row ≠ [])
    (hbest : best.cost ≤ (step.layoutWith width row).cost) {front : List (List Text)} {more : List Text}
    (hfront : Partition front.flatten front) (hwords : front.flatten ++ more = wordsOf steps) :
    (search width steps row best).cost ≤ raggedness width (linesOf (front ++ [more ++ row])) := by
  induction steps generalizing step row best more with
  | nil =>
    obtain ⟨hnil, rfl⟩ := List.append_eq_nil_iff.mp hwords
    rw [hnil] at hfront
    exact (cost_search_le_best [] hrow best).trans (hbest.trans (cost_layoutWith_le hsteps.1 hfront row))
  | cons next steps ih =>
    obtain ⟨hbefore, hsteps⟩ := hsteps
    by_cases hmore : more = []
    · rw [hmore, List.append_nil] at hwords
      rw [hwords] at hfront
      rw [hmore, List.nil_append]
      exact (cost_search_le_best _ hrow best).trans (hbest.trans (cost_layoutWith_le hbefore hfront row))
    · rw [wordsOf_cons] at hwords
      obtain ⟨init, rfl, hinit⟩ := exists_concat_of_append hmore hwords
      rw [search_cons _ _ _ hrow]
      split
      next hwide => exact hbest.trans (cost_layoutWith_le_of_wide hrow hwide front _)
      next =>
        rw [List.append_assoc, List.singleton_append]
        exact ih hsteps (List.cons_ne_nil _ _) (cost_cheaper_le_left _ _) hinit

/-! ## The best layouts, word by word -/

theorem least_bestEnding (hsteps : Optimal width (step :: steps)) :
    Least width (bestEnding width step steps) (wordsOf (step :: steps)) := by
  refine ⟨covers_bestEnding hsteps.2.sound hsteps.1.covers, ?_, ?_⟩
  · rw [bestEnding_eq]
    exact priced_search hsteps.2 (List.cons_ne_nil _ _) (priced_layoutWith hsteps.1 _)
  · intro rows hrows
    obtain ⟨front, last, rfl, hfront, hlast, hwords⟩ := hrows.exists_last (by simp [wordsOf_cons])
    rw [wordsOf_cons] at hwords
    obtain ⟨more, rfl, hmore⟩ := exists_concat_of_append hlast hwords
    rw [bestEnding_eq]
    exact cost_search_le hsteps (List.cons_ne_nil _ _) (Nat.le_refl _) hfront hmore

theorem least_layoutFrom (hsteps : Optimal width steps) (hbest : Least width best (wordsOf steps)) :
    Least width (layoutFrom width steps best words) (wordsOf steps ++ words) := by
  induction words generalizing steps best with
  | nil => simpa [layoutFrom] using hbest
  | cons word words ih =>
    have hsteps' : Optimal width (⟨word, best⟩ :: steps) := ⟨hbest, hsteps⟩
    have h := ih hsteps' (least_bestEnding hsteps')
    rwa [wordsOf_cons, List.append_assoc, List.singleton_append] at h

theorem least_layout (width : Nat) (words : List Text) : Least width (layout width words) words := by
  have hsteps : Optimal width [] := trivial
  have hempty : Least width .empty (wordsOf []) :=
    ⟨⟨rfl, by simp [Layout.empty]⟩, rfl, fun _ _ => Nat.zero_le _⟩
  exact least_layoutFrom hsteps hempty

/-! ## Breaking a text -/

/-- Ragged breaking parts the words of a text, which are what single spaces separate, into rows whose lines
make up the text; it gives these lines without the empty ones at the end; and no other partition of the
words is cheaper. -/
theorem ragged_least (t : Text) (width : Nat) :
    let words := Text.splitOn ' ' t
    let rows := (layout (max width 1) words).lines.reverse
    Partition words rows ∧ Text.join ' ' (linesOf rows) = t ∧
    (∃ n, linesOf rows = ragged t width ++ List.replicate n []) ∧ (ragged t width).getLast? ≠ some [] ∧
    ∀ rows', Partition words rows' →
      raggedness (max width 1) (linesOf rows) ≤ raggedness (max width 1) (linesOf rows') := by
  intro words rows
  obtain ⟨hcovers, hpriced, hle⟩ := least_layout (max width 1) words
  refine ⟨hcovers.partition, ?_, Text.exists_replicate_of_dropTrailingEmpty _,
    Text.getLast?_dropTrailingEmpty_ne _, fun rows' h => ?_⟩
  · rw [hcovers.partition.join_linesOf, Text.join_splitOn]
  · rw [← hpriced]
    exact hle rows' h

theorem ragged_least_balanced :
    let filled : List (List Text) := [["aaa".toList, "bb".toList, "cc".toList], ["ddddd".toList]]
    ragged "aaa bb cc ddddd".toList 9 = ["aaa bb".toList, "cc ddddd".toList] ∧
    Partition (Text.splitOn ' ' "aaa bb cc ddddd".toList) filled ∧
    raggedness 9 ["aaa bb".toList, "cc ddddd".toList] ≤ raggedness 9 (linesOf filled) ∧
    raggedness 9 (linesOf filled) = 16 := by
  intro filled
  have hfilled : Partition (Text.splitOn ' ' "aaa bb cc ddddd".toList) filled := ⟨by decide, by decide⟩
  obtain ⟨-, -, -, -, hle⟩ := ragged_least "aaa bb cc ddddd".toList 9
  exact ⟨by decide, hfilled, hle filled hfilled, by decide⟩

end Reflow.Break
