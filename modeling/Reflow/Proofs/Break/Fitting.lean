import Reflow.Proofs.Break.Again
import Reflow.Proofs.Break.LastLine

/-!
# Lines that are too wide

Each column that a line is too wide by costs `10 ^ 10`.  If the squared width for every word costs less than that
in all, then one line for each word is cheaper than any line that is too wide without need.  So if every word fits
in the width, then every line does, and least raggedness is the least sum of the squared space at the ends of the
lines (`ragged_least_squares`).

A word that does not fit gets a line of its own.  Its cost stays with the lines after it until one of them is too
wide, which forgets that cost: behind such a word a line of several words can be too wide, but by no more columns
than the word is (`ragged_overflow`).
-/

namespace Reflow.Break

variable {width : Nat} {words row x y : List Text} {front back rows : List (List Text)} {lines : List Text}
  {word line : Text}

/-! ## The cost of lines that fit, and of others -/

def squaredSlack (width : Nat) (lines : List Text) : Nat :=
  (lines.map fun line => (width - line.length) ^ 2).sum

theorem raggedness_concat (width : Nat) (lines : List Text) (line : Text) :
    raggedness width (lines ++ [line]) = lineCost width (raggedness width lines) line.length := by
  rw [raggedness, List.foldl_append, lineCost, ← Nat.pow_two]
  rfl

theorem lineCost_of_wide (h : width < line.length) (before : Nat) :
    lineCost width before line.length = 10 ^ 10 * (line.length - width) :=
  if_pos h

theorem lineCost_of_fits (h : line.length ≤ width) (before : Nat) :
    lineCost width before line.length = min (before + (width - line.length) ^ 2) costBound := by
  rw [lineCost, if_neg (Nat.not_lt.mpr h), ← Nat.pow_two]

theorem raggedness_of_fits (h : ∀ line ∈ lines, line.length ≤ width) :
    raggedness width lines = min (squaredSlack width lines) costBound := by
  induction lines using List.reverseRecOn with
  | nil => rfl
  | append_singleton lines line ih =>
    rw [List.forall_mem_append, List.forall_mem_singleton] at h
    rw [raggedness_concat, lineCost_of_fits h.2, ih h.1, squaredSlack, squaredSlack, List.map_append, List.sum_append,
      List.map_singleton, List.sum_singleton]
    omega

theorem le_raggedness_of_wide (hline : line ∈ lines) (hwide : width < line.length) :
    10 ^ 10 ≤ raggedness width lines := by
  induction lines using List.reverseRecOn with
  | nil => exact absurd hline List.not_mem_nil
  | append_singleton lines last ih =>
    rw [raggedness_concat]
    by_cases hlast : width < last.length
    · rw [lineCost_of_wide hlast]
      omega
    · rw [lineCost_of_fits (Nat.not_lt.mp hlast)]
      have hbound : 10 ^ 10 ≤ costBound := by decide
      rcases List.mem_append.mp hline with hline | hline
      · have := ih hline
        omega
      · rw [List.mem_singleton] at hline
        exact absurd (hline ▸ hwide) hlast

/-- The last one of some texts that does not fit. -/
def LastOverlong (width : Nat) (texts : List Text) (t : Text) : Prop :=
  width < t.length ∧ ∃ before after, texts = before ++ t :: after ∧ ∀ u ∈ after, u.length ≤ width

namespace LastOverlong

variable {texts more : List Text} {t u : Text}

theorem mem (h : LastOverlong width texts t) : t ∈ texts := by
  obtain ⟨-, before, after, rfl, -⟩ := h
  simp

theorem last (texts : List Text) (h : width < t.length) : LastOverlong width (texts ++ [t]) t :=
  ⟨h, texts, [], rfl, by simp⟩

theorem concat (h : LastOverlong width texts t) (hu : u.length ≤ width) : LastOverlong width (texts ++ [u]) t := by
  obtain ⟨hwide, before, after, rfl, hafter⟩ := h
  refine ⟨hwide, before, after ++ [u], by simp, ?_⟩
  rw [List.forall_mem_append, List.forall_mem_singleton]
  exact ⟨hafter, hu⟩

theorem of_append (h : LastOverlong width (texts ++ more) t) (hmore : ∀ u ∈ more, u.length ≤ width) :
    LastOverlong width texts t := by
  obtain ⟨hwide, before, after, heq, hafter⟩ := h
  have hnot : t ∉ more := fun hmem => absurd (hmore t hmem) (Nat.not_le.mpr hwide)
  rcases List.append_eq_append_iff.mp heq with ⟨e, -, rfl⟩ | ⟨e, htexts, hrest⟩
  · simp at hnot
  · cases e with
    | nil =>
      rw [List.nil_append] at hrest
      simp [← hrest] at hnot
    | cons v e =>
      obtain ⟨rfl, rfl⟩ := List.cons.inj hrest
      exact ⟨hwide, before, e, htexts, fun u hu => hafter u (List.mem_append_left _ hu)⟩

end LastOverlong

/-- Lines cost what the last one that is too wide costs, and at most the squared width for each line. -/
theorem raggedness_cases (width : Nat) (lines : List Text) :
    ((∀ line ∈ lines, line.length ≤ width) ∧ raggedness width lines ≤ lines.length * width ^ 2) ∨
    ∃ line, LastOverlong width lines line ∧
      raggedness width lines ≤ 10 ^ 10 * (line.length - width) + lines.length * width ^ 2 := by
  induction lines using List.reverseRecOn with
  | nil => exact .inl ⟨by simp, Nat.zero_le _⟩
  | append_singleton lines last ih =>
    have hlength : (lines ++ [last]).length * width ^ 2 = lines.length * width ^ 2 + width ^ 2 := by
      rw [List.length_append, List.length_singleton, Nat.succ_mul]
    rw [raggedness_concat, hlength]
    by_cases hlast : width < last.length
    · refine .inr ⟨last, .last lines hlast, ?_⟩
      rw [lineCost_of_wide hlast]
      exact Nat.le_add_right _ _
    · rw [Nat.not_lt] at hlast
      have hslack : (width - last.length) ^ 2 ≤ width ^ 2 := Nat.pow_le_pow_left (Nat.sub_le _ _) 2
      rw [lineCost_of_fits hlast]
      rcases ih with ⟨hfits, hle⟩ | ⟨line, hline, hle⟩
      · refine .inl ⟨?_, by omega⟩
        rw [List.forall_mem_append, List.forall_mem_singleton]
        exact ⟨hfits, hlast⟩
      · exact .inr ⟨line, hline.concat hlast, by omega⟩

/-! ## One line for each word -/

theorem partition_singletons (words : List Text) : Partition words (words.map fun word => [word]) :=
  ⟨List.flatMap_singleton' words, by simp⟩

theorem linesOf_singletons (words : List Text) : linesOf (words.map fun word => [word]) = words := by
  simp [linesOf, Function.comp_def]

theorem raggedness_lt_of_fits (hwords : ∀ word ∈ words, word.length ≤ width)
    (hn : words.length * width ^ 2 < 10 ^ 10) : raggedness width words < 10 ^ 10 := by
  rcases raggedness_cases width words with ⟨-, hle⟩ | ⟨word, hword, -⟩
  · omega
  · exact absurd (hwords word hword.mem) (Nat.not_le.mpr hword.1)

theorem cost_layout_lt (hwords : ∀ word ∈ words, word.length ≤ width) (hn : words.length * width ^ 2 < 10 ^ 10) :
    (layout width words).cost < 10 ^ 10 := by
  have hle := (least_layout width words).cost_le _ (partition_singletons words)
  rw [linesOf_singletons] at hle
  exact hle.trans_lt (raggedness_lt_of_fits hwords hn)

/-- If every word fits in the width, and the squared width for each word is less in all than the cost of one
column, then ragged breaking gives lines that fit, by a partition of the words with the least sum of the squared
space at the ends of lines among all whose lines fit. -/
theorem ragged_least_squares {t : Text} {width : Nat} (hwords : ∀ word ∈ Text.splitOn ' ' t, word.length ≤ max width 1)
    (hn : (Text.splitOn ' ' t).length * max width 1 ^ 2 < 10 ^ 10) :
    let W := max width 1
    let words := Text.splitOn ' ' t
    let rows := (layout W words).lines.reverse
    (∀ line ∈ ragged t width, line.length ≤ W) ∧
    ragged t width = Text.dropTrailingEmpty (linesOf rows) ∧ Partition words rows ∧
    (∀ line ∈ linesOf rows, line.length ≤ W) ∧
    ∀ rows', Partition words rows' → (∀ line ∈ linesOf rows', line.length ≤ W) →
      squaredSlack W (linesOf rows) ≤ squaredSlack W (linesOf rows') := by
  intro W words rows
  have hcost : (layout W words).cost < 10 ^ 10 := cost_layout_lt hwords hn
  obtain ⟨hcovers, hpriced, hle⟩ := least_layout W words
  have hfits : ∀ line ∈ linesOf rows, line.length ≤ W := by
    intro line hline
    by_contra hwide
    have := le_raggedness_of_wide hline (Nat.not_le.mp hwide)
    rw [← hpriced] at this
    omega
  refine ⟨fun line hline => hfits line (Text.mem_of_mem_dropTrailingEmpty hline), rfl, hcovers.partition, hfits, ?_⟩
  intro rows' hrows' hfits'
  have hother := hle rows' hrows'
  rw [hpriced, raggedness_of_fits hfits] at hcost hother
  rw [raggedness_of_fits hfits'] at hother
  have hbound : 10 ^ 10 ≤ costBound := by decide
  omega

theorem ragged_least_squares_balanced :
    let words := ["aaa".toList, "bb".toList, "cc".toList, "ddddd".toList]
    Text.splitOn ' ' "aaa bb cc ddddd".toList = words ∧ (∀ word ∈ words, word.length ≤ 9) ∧
    words.length * 9 ^ 2 < 10 ^ 10 ∧ ragged "aaa bb cc ddddd".toList 9 = ["aaa bb".toList, "cc ddddd".toList] ∧
    squaredSlack 9 ["aaa bb".toList, "cc ddddd".toList] ≤
      squaredSlack 9 (linesOf [["aaa".toList, "bb".toList, "cc".toList], ["ddddd".toList]]) := by
  intro words
  have hwords : ∀ word ∈ Text.splitOn ' ' "aaa bb cc ddddd".toList, word.length ≤ max 9 1 := by decide
  have hn : (Text.splitOn ' ' "aaa bb cc ddddd".toList).length * max 9 1 ^ 2 < 10 ^ 10 := by decide
  obtain ⟨-, -, -, -, hle⟩ := ragged_least_squares hwords hn
  exact ⟨by decide, by decide, by decide, by decide, hle _ ⟨by decide, by decide⟩ (by decide)⟩

/-! ## Words that do not fit -/

theorem raggedness_front_le (h : (layout width words).lines.reverse = front ++ back)
    (hrows : Partition front.flatten rows) : raggedness width (linesOf front) ≤ raggedness width (linesOf rows) := by
  obtain ⟨-, hpriced, hle⟩ := least_layout width front.flatten
  rw [Priced, layout_front h] at hpriced
  rw [← hpriced]
  exact hle rows hrows

/-- A row that is cut in two, one of which is too wide, is dearer than the two. -/
theorem raggedness_cut_lt (front : List (List Text)) (hx : x ≠ []) (hy : y ≠ []) (hwidth : width ^ 2 < 10 ^ 10)
    (hwide : width < (Text.join ' ' x).length ∨ width < (Text.join ' ' y).length) :
    raggedness width (linesOf (front ++ [x, y])) < raggedness width (linesOf (front ++ [x ++ y])) := by
  have hlength : (Text.join ' ' (x ++ y)).length = (Text.join ' ' x).length + 1 + (Text.join ' ' y).length := by
    rw [Text.join_append hx hy, List.length_append, List.length_cons]
    omega
  have hboth : width < (Text.join ' ' (x ++ y)).length := by omega
  have happend : front ++ [x, y] = (front ++ [x]) ++ [y] := by simp
  rw [happend, raggedness_append, raggedness_append, raggedness_append, lineCost_of_wide hboth]
  by_cases hlast : width < (Text.join ' ' y).length
  · rw [lineCost_of_wide hlast]
    omega
  · have hslack : (width - (Text.join ' ' y).length) ^ 2 ≤ width ^ 2 := Nat.pow_le_pow_left (Nat.sub_le _ _) 2
    rw [lineCost_of_fits (Nat.not_lt.mp hlast), lineCost_of_wide (hwide.resolve_right hlast)]
    have := hwide.resolve_right hlast
    omega

theorem fits_of_cut (h : (layout width words).lines.reverse = front ++ (x ++ y) :: back) (hx : x ≠ []) (hy : y ≠ [])
    (hwidth : width ^ 2 < 10 ^ 10) : (Text.join ' ' x).length ≤ width ∧ (Text.join ' ' y).length ≤ width := by
  have hsplit : (layout width words).lines.reverse = (front ++ [x ++ y]) ++ back := by simp [h]
  have hrows := (covers_layout width words).partition.ne_nil
  have hcut : Partition (front ++ [x ++ y]).flatten (front ++ [x, y]) := by
    refine ⟨by simp, fun r hr => ?_⟩
    rcases List.mem_append.mp hr with hr | hr
    · exact hrows r (by rw [h]; exact List.mem_append_left _ hr)
    · rcases List.mem_pair.mp hr with rfl | rfl
      · exact hx
      · exact hy
  have hle := raggedness_front_le hsplit hcut
  by_contra hwide
  rw [not_and_or, Nat.not_le, Nat.not_le] at hwide
  exact absurd (raggedness_cut_lt front hx hy hwidth hwide) (Nat.not_lt.mpr hle)

theorem eq_singleton_of_overlong (h : (layout width words).lines.reverse = front ++ row :: back)
    (hwidth : width ^ 2 < 10 ^ 10) (hword : word ∈ row) (hlong : width < word.length) : row = [word] := by
  obtain ⟨before, after, rfl⟩ := List.append_of_mem hword
  have hwide : width < (Text.join ' ' [word]).length := by rwa [Text.join_singleton]
  rcases eq_or_ne after [] with rfl | hafter
  · rcases eq_or_ne before [] with rfl | hbefore
    · rfl
    · obtain ⟨-, hfits⟩ := fits_of_cut h hbefore (List.cons_ne_nil _ _) hwidth
      exact absurd hfits (Nat.not_le.mpr hwide)
  · rw [List.append_cons before word after] at h
    obtain ⟨hfits, -⟩ := fits_of_cut h (by simp) hafter hwidth
    have hle := length_join_le_append before (List.cons_ne_nil word [])
    exact absurd (hwide.trans_le hle) (Nat.not_lt.mpr hfits)

/-- A row of several words that is too wide comes behind a word that does not fit, and is no longer than the last
such word. -/
theorem exists_overlong_of_wide (h : (layout width words).lines.reverse = front ++ row :: back)
    (hn : words.length * width ^ 2 < 10 ^ 10) (hwide : width < (Text.join ' ' row).length)
    (hrow : ∀ word ∈ row, word.length ≤ width) :
    ∃ word, LastOverlong width front.flatten word ∧ (Text.join ' ' row).length ≤ word.length := by
  have hsplit : (layout width words).lines.reverse = (front ++ [row]) ++ back := by simp [h]
  have hle := raggedness_front_le hsplit (partition_singletons _)
  rw [linesOf_singletons, raggedness_append, lineCost_of_wide hwide] at hle
  have hflat : (front ++ [row]).flatten = front.flatten ++ row := by simp
  have hwords : words = front.flatten ++ row ++ back.flatten := by
    rw [← (covers_layout width words).1, hsplit, List.flatten_append, hflat]
  have hcount : (front.flatten ++ row).length * width ^ 2 < 10 ^ 10 := by
    refine Nat.lt_of_le_of_lt (Nat.mul_le_mul_right _ ?_) hn
    rw [hwords]
    exact (List.prefix_append _ _).length_le
  rw [hflat] at hle
  rcases raggedness_cases width (front.flatten ++ row) with ⟨-, hsmall⟩ | ⟨word, hword, hcost⟩
  · omega
  · have hlong := hword.1
    exact ⟨word, hword.of_append hrow, by omega⟩

/-! ## Single spaces -/

theorem ragged_nil (width : Nat) : ragged [] width = [] := by
  simp [ragged, layout, layoutFrom, bestEnding, bestFrom, Layout.empty, Text.splitOn, Text.dropTrailingEmpty]

theorem ragged_join (hwords : ∀ word ∈ words, word ≠ [] ∧ ' ' ∉ word) (hne : words ≠ []) :
    ragged (Text.join ' ' words) width = linesOf (layout (max width 1) words).lines.reverse := by
  obtain ⟨ht, hend, hsplit⟩ := join_of_words hne hwords
  rw [ragged, (breaks_ragged _ _).dropTrailingEmpty_eq_self ht hend, hsplit]
  rfl

/-- If words hold characters and no spaces, and the squared width for each of them is less in all than the cost of
one column, then ragged breaking of the words with single spaces between them gives rows of them of which a word
that does not fit has one for itself, and any other one fits or comes behind a word that does not, and is no longer
than the last such word. -/
theorem ragged_overflow {words : List Text} {width : Nat} (hwords : ∀ word ∈ words, word ≠ [] ∧ ' ' ∉ word)
    (hn : words.length * max width 1 ^ 2 < 10 ^ 10) :
    let W := max width 1
    let rows := (layout W words).lines.reverse
    Partition words rows ∧ ragged (Text.join ' ' words) width = linesOf rows ∧
    ∀ front row back, rows = front ++ row :: back →
      (∀ word ∈ row, W < word.length → row = [word]) ∧
      ((Text.join ' ' row).length ≤ W ∨ (∃ word, row = [word]) ∨
        ∃ word, LastOverlong W front.flatten word ∧ (Text.join ' ' row).length ≤ word.length) := by
  intro W rows
  have hjoin : ragged (Text.join ' ' words) width = linesOf rows := by
    rcases eq_or_ne words [] with rfl | hne
    · exact ragged_nil width
    · exact ragged_join hwords hne
  refine ⟨(covers_layout W words).partition, hjoin, fun front row back h => ?_⟩
  have hne : words ≠ [] := by
    rintro rfl
    simp [rows, layout, layoutFrom, Layout.empty] at h
  have hwidth : W ^ 2 < 10 ^ 10 := Nat.lt_of_le_of_lt (Nat.le_mul_of_pos_left _ (List.length_pos_of_ne_nil hne)) hn
  have hsingle : ∀ word ∈ row, W < word.length → row = [word] := fun word => eq_singleton_of_overlong h hwidth
  refine ⟨hsingle, ?_⟩
  by_cases hfits : (Text.join ' ' row).length ≤ W
  · exact .inl hfits
  by_cases hlong : ∃ word ∈ row, W < word.length
  · obtain ⟨word, hword, hlong⟩ := hlong
    exact .inr (.inl ⟨word, hsingle word hword hlong⟩)
  · push Not at hlong
    exact .inr (.inr (exists_overlong_of_wide h hn (Nat.not_le.mp hfits) hlong))

theorem ragged_overflow_behind :
    let words := ["aaaaaaaaa".toList, "bb".toList, "ccc".toList]
    (∀ word ∈ words, word ≠ [] ∧ ' ' ∉ word) ∧ words.length * max 5 1 ^ 2 < 10 ^ 10 ∧
    (layout 5 words).lines.reverse = [["aaaaaaaaa".toList], ["bb".toList, "ccc".toList]] ∧
    5 < (Text.join ' ' ["bb".toList, "ccc".toList]).length ∧
    ∃ word, LastOverlong 5 [["aaaaaaaaa".toList]].flatten word ∧
      (Text.join ' ' ["bb".toList, "ccc".toList]).length ≤ word.length := by
  intro words
  have hwords : ∀ word ∈ words, word ≠ [] ∧ ' ' ∉ word := by decide
  have hn : words.length * max 5 1 ^ 2 < 10 ^ 10 := by decide
  have hrows : (layout 5 words).lines.reverse = [["aaaaaaaaa".toList], ["bb".toList, "ccc".toList]] := by decide
  have hwide : 5 < (Text.join ' ' ["bb".toList, "ccc".toList]).length := by decide
  obtain ⟨-, -, hrow⟩ := ragged_overflow hwords hn
  obtain ⟨-, hfits | ⟨word, hsingle⟩ | hbehind⟩ := hrow [["aaaaaaaaa".toList]] _ [] hrows
  · exact absurd hfits (Nat.not_le.mpr hwide)
  · simp at hsingle
  · exact ⟨hwords, hn, hrows, hwide, hbehind⟩

/-- Behind a word that does not fit, two words that do make a line that is too wide. -/
theorem ragged_wide_pair :
    let words := ["aaaaaaaaa".toList, "bb".toList, "ccc".toList]
    (∀ word ∈ words, word ≠ [] ∧ ' ' ∉ word) ∧ words.length * max 5 1 ^ 2 < 10 ^ 10 ∧
    ¬∀ line ∈ ragged (Text.join ' ' words) 5, line.length ≤ max 5 1 ∨ ' ' ∉ line := by
  decide

end Reflow.Break
