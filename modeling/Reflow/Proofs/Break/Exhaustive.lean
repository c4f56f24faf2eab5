import Reflow.Proofs.Break.LastLine

/-!
# Trying every break

The plain way to least raggedness keeps a table: for the first words of every number, the least cost of laying
them out and the place where their last line starts.  It finds an entry by trying every place from the first one
on, in numbers without a bound, and goes back through the entries for the lines.

Ragged breaking gives the same lines (`ragged_eq_exhaustive`) although it tries the places from the last one down,
stops at a line that is too wide, and cuts its costs off at a bound.  One line with all the words is a layout,
and its cost is below the bound as long as the length of the text and the width are 64-bit numbers; so the least
cost is below the bound, and costs that are cut off are not least.
-/

namespace Reflow.Break

/-! ## The table -/

/-- The cost of a layout whose last line has the given length, after lines of cost `before`, in numbers without a
bound. -/
def exactCost (width before length : Nat) : Nat :=
  if width < length then 10 ^ 10 * (length - width) else before + (width - length) ^ 2

/-- The length of the line with the words from a place on and before another one. -/
def lengthBetween (words : List Text) (i j : Nat) : Nat :=
  (Text.join ' ' ((words.take j).drop i)).length

/-- What the table holds for a number of words. -/
structure Entry where
  /-- The least cost of laying the words out. -/
  cost : Nat
  start : Nat
deriving DecidableEq, Repr

def firstLeast (cost : Nat → Nat) : Nat → Nat
  | 0 => 0
  | n + 1 =>
    let best := firstLeast cost n
    if cost (n + 1) < cost best then n + 1 else best

/-- The entries for up to the given number of words. -/
def table (width : Nat) (words : List Text) : Nat → List Entry
  | 0 => [⟨0, 0⟩]
  | j + 1 =>
    let entries := table width words j
    let cost := fun i => exactCost width (entries.getD i ⟨0, 0⟩).cost (lengthBetween words i (j + 1))
    let start := firstLeast cost j
    entries ++ [⟨cost start, start⟩]

/-- The rows of the first words, by the places where the last lines start. -/
def rowsTo (words : List Text) (entries : List Entry) (j : Nat) : List (List Text) :=
  let i := (entries.getD j ⟨0, 0⟩).start
  -- Every last line has a word.
  if i < j then rowsTo words entries i ++ [(words.take j).drop i] else []
termination_by j

/-- Breaks a text into lines of least raggedness, with every break tried. -/
def exhaustive (t : Text) (width : Nat) : List Text :=
  let words := Text.splitOn ' ' t
  let entries := table (max width 1) words words.length
  Text.dropTrailingEmpty (linesOf (rowsTo words entries words.length))

variable {width : Nat} {words : List Text} {i j : Nat}

def entry (width : Nat) (words : List Text) (j : Nat) : Entry :=
  (table width words j).getD j ⟨0, 0⟩

def least (width : Nat) (words : List Text) (j : Nat) : Nat :=
  (entry width words j).cost

/-- The cost of laying out `j` words if their last line starts at the place `i`. -/
def breakCost (width : Nat) (words : List Text) (i j : Nat) : Nat :=
  exactCost width (least width words i) (lengthBetween words i j)

theorem length_table (width : Nat) (words : List Text) (j : Nat) : (table width words j).length = j + 1 := by
  induction j with
  | zero => rfl
  | succ j ih => rw [table, List.length_append, ih, List.length_singleton]

theorem getD_table (h : i ≤ j) : (table width words j).getD i ⟨0, 0⟩ = entry width words i := by
  induction j with
  | zero => rw [Nat.le_zero.mp h, entry]
  | succ j ih =>
    rcases Nat.eq_or_lt_of_le h with rfl | hlt
    · rfl
    · rw [table, List.getD_append _ _ _ _ (by rw [length_table]; exact hlt)]
      exact ih (Nat.le_of_lt_succ hlt)

theorem leastAt_firstLeast (cost : Nat → Nat) (n : Nat) : LeastAt cost 0 (n + 1) (firstLeast cost n) := by
  induction n with
  | zero => exact .singleton cost 0
  | succ n ih => exact ih.succ

theorem least_zero (width : Nat) (words : List Text) : least width words 0 = 0 := rfl

theorem leastAt_start (width : Nat) (words : List Text) (j : Nat) :
    LeastAt (fun i => breakCost width words i (j + 1)) 0 (j + 1) (entry width words (j + 1)).start ∧
    least width words (j + 1) = breakCost width words (entry width words (j + 1)).start (j + 1) := by
  have hcost : ∀ i < j + 1, breakCost width words i (j + 1) =
      exactCost width ((table width words j).getD i ⟨0, 0⟩).cost (lengthBetween words i (j + 1)) := by
    intro i hi
    rw [getD_table (Nat.le_of_lt_succ hi)]
    rfl
  have hentry : entry width words (j + 1) =
      let start := firstLeast (fun i =>
        exactCost width ((table width words j).getD i ⟨0, 0⟩).cost (lengthBetween words i (j + 1))) j
      ⟨exactCost width ((table width words j).getD start ⟨0, 0⟩).cost (lengthBetween words start (j + 1)), start⟩ := by
    have hlength := length_table width words j
    rw [entry, table, List.getD_append_right _ _ _ _ (Nat.le_of_eq hlength), hlength, Nat.sub_self]
    rfl
  have hleast := (leastAt_firstLeast _ j).congr hcost
  rw [least, hentry]
  exact ⟨hleast, (hcost _ hleast.lt_high).symm⟩

theorem rowsTo_zero (words : List Text) (entries : List Entry) : rowsTo words entries 0 = [] := by
  rw [rowsTo, if_neg (Nat.not_lt_zero _)]

theorem rowsTo_succ (h : j < words.length) :
    rowsTo words (table width words words.length) (j + 1) =
      rowsTo words (table width words words.length) (entry width words (j + 1)).start ++
        [(words.take (j + 1)).drop (entry width words (j + 1)).start] := by
  obtain ⟨hleast, -⟩ := leastAt_start width words j
  rw [rowsTo, getD_table h, if_pos hleast.lt_high]

/-! ## Costs below the bound -/

/-- A cost in numbers with a bound is the exact one, or cut off at the bound. -/
theorem lineCost_cut (width before length : Nat) :
    lineCost width before length ≤ exactCost width before length ∧
    min (exactCost width before length) costBound ≤ lineCost width before length := by
  unfold lineCost exactCost
  rw [Nat.pow_two]
  split
  · exact ⟨Nat.le_refl _, Nat.min_le_left _ _⟩
  · exact ⟨Nat.min_le_left _ _, Nat.le_refl _⟩

theorem slack_lt {width : Nat} (hwidth : width < 2 ^ 64) (length : Nat) : (width - length) ^ 2 < 2 ^ 128 - 1 := by
  have hle : width - length ≤ 2 ^ 64 - 1 := by omega
  calc (width - length) ^ 2 ≤ (2 ^ 64 - 1) ^ 2 := Nat.pow_le_pow_left hle 2
    _ < 2 ^ 128 - 1 := by norm_num

theorem penalty_lt {length : Nat} (hlength : length < 2 ^ 64) (width : Nat) :
    10 ^ 10 * (length - width) < 2 ^ 128 - 1 := by
  omega

theorem exactCost_lt {length : Nat} (hwidth : width < 2 ^ 64) (hlength : length < 2 ^ 64) :
    exactCost width 0 length < costBound := by
  have hslack := slack_lt hwidth length
  have hpenalty := penalty_lt hlength width
  unfold exactCost
  split
  · exact hpenalty
  · rw [Nat.zero_add]
    exact hslack

theorem lengthBetween_le (words : List Text) (i j : Nat) :
    lengthBetween words i j ≤ (Text.join ' ' words).length := by
  rw [lengthBetween]
  by_cases hne : (words.take j).drop i = []
  · rw [hne]
    exact Nat.zero_le _
  · have hsub : ((words.take j).drop i).Sublist words := (List.drop_sublist i _).trans (List.take_sublist j words)
    have hwords : words ≠ [] := by
      rintro rfl
      exact hne (by simp)
    have := Text.length_join (c := ' ') hne
    have := Text.length_join (c := ' ') hwords
    have := hsub.length_le
    have := hsub.flatten.length_le
    omega

/-- A last line that starts before one that is too wide costs more than the least cost. -/
theorem least_lt_breakCost {k : Nat} (hlt : k < i) (hi : i < j) (hj : j ≤ words.length)
    (hwide : width < lengthBetween words i j) : least width words j < breakCost width words k j := by
  obtain ⟨j, rfl⟩ := Nat.exists_eq_add_one_of_ne_zero (Nat.ne_zero_of_lt hi)
  have hlonger : lengthBetween words i (j + 1) < lengthBetween words k (j + 1) :=
    length_join_drop_lt hlt (by rwa [List.length_take_of_le hj])
  obtain ⟨hleast, hcost⟩ := leastAt_start width words j
  calc least width words (j + 1)
      = breakCost width words (entry width words (j + 1)).start (j + 1) := hcost
    _ ≤ breakCost width words i (j + 1) := hleast.cost_le i (Nat.zero_le _) hi
    _ < breakCost width words k (j + 1) := by
      rw [breakCost, breakCost, exactCost, if_pos hwide, exactCost, if_pos (hwide.trans hlonger)]
      omega

theorem least_lt (hwidth : width < 2 ^ 64) (hlength : (Text.join ' ' words).length < 2 ^ 64) (j : Nat) :
    least width words j < costBound := by
  cases j with
  | zero =>
    rw [least_zero]
    decide
  | succ j =>
    obtain ⟨hleast, hcost⟩ := leastAt_start width words j
    rw [hcost]
    exact (hleast.cost_le 0 (Nat.zero_le _) (Nat.succ_pos j)).trans_lt
      (exactCost_lt hwidth ((lengthBetween_le _ _ _).trans_lt hlength))

/-! ## The same breaks -/

/-- If the best layouts of fewer words cost what the table holds for them, then the last line of the next layout
starts where the table says, at the cost in the table. -/
theorem leastAt_costAt (hwidth : width < 2 ^ 64) (hlength : (Text.join ' ' words).length < 2 ^ 64)
    (hcost : ∀ i < j + 1, (layout width (words.take i)).cost = least width words i) :
    LeastAt (costAt width (words.take (j + 1))) 0 (j + 1) (entry width words (j + 1)).start ∧
    costAt width (words.take (j + 1)) (entry width words (j + 1)).start = least width words (j + 1) := by
  obtain ⟨hleast, hstart⟩ := leastAt_start width words j
  have hlt : breakCost width words (entry width words (j + 1)).start (j + 1) < costBound := by
    rw [← hstart]
    exact least_lt hwidth hlength _
  have hcut : ∀ i < j + 1, costAt width (words.take (j + 1)) i ≤ breakCost width words i (j + 1) ∧
      min (breakCost width words i (j + 1)) costBound ≤ costAt width (words.take (j + 1)) i := by
    intro i hi
    rw [costAt, List.take_take, Nat.min_eq_left hi.le, hcost i hi]
    exact lineCost_cut width _ _
  have hexact := hcut _ hleast.lt_high
  exact ⟨hleast.of_cut hlt hcut, by omega⟩

theorem layout_take (hwidth : width < 2 ^ 64) (hlength : (Text.join ' ' words).length < 2 ^ 64) (hj : j ≤ words.length) :
    layout width (words.take j) =
      ⟨least width words j, (rowsTo words (table width words words.length) j).reverse⟩ := by
  induction j using Nat.strong_induction_on with
  | _ j ih =>
    cases j with
    | zero =>
      rw [rowsTo_zero]
      rfl
    | succ j =>
      have hbefore : ∀ i < j + 1, (layout width (words.take i)).cost = least width words i := fun i hi => by
        rw [ih i hi (hi.le.trans hj)]
      obtain ⟨hleast, hcost⟩ := leastAt_costAt hwidth hlength hbefore
      have hlen : (words.take (j + 1)).length = j + 1 := List.length_take_of_le hj
      obtain ⟨i, hi, hlayout⟩ := exists_leastAt_layout width (List.ne_nil_of_length_eq_add_one hlen)
      rw [hlen] at hi
      obtain rfl := hi.unique hleast
      have hstart := hleast.lt_high
      rw [hlayout, ending, hcost, List.take_take, Nat.min_eq_left hstart.le, ih _ hstart (hstart.le.trans hj),
        rowsTo_succ hj, List.reverse_append, List.reverse_singleton]
      rfl

/-- Ragged breaking gives what trying every break in unbounded numbers gives, if the length of the text and the
width are 64-bit numbers.  For the first words of every number it finds the least cost, which is below the bound,
so that no cost that is cut off is taken.  Of every line that it could come to, the penalty and the square are
128-bit numbers; and if one is too wide, then all breaks before it cost more than the least one. -/
theorem ragged_eq_exhaustive {t : Text} {width : Nat} (ht : t.length < 2 ^ 64) (hwidth : width < 2 ^ 64) :
    let W := max width 1
    let words := Text.splitOn ' ' t
    ragged t width = exhaustive t width ∧
    ∀ j ≤ words.length,
      (layout W (words.take j)).cost = least W words j ∧ least W words j < 2 ^ 128 - 1 ∧
      ∀ i < j,
        10 ^ 10 * (lengthBetween words i j - W) < 2 ^ 128 ∧ (W - lengthBetween words i j) ^ 2 < 2 ^ 128 ∧
        (W < lengthBetween words i j → ∀ k < i, least W words j < breakCost W words k j) := by
  intro W words
  have hW : W < 2 ^ 64 := Nat.max_lt.mpr ⟨hwidth, by decide⟩
  have hlength : (Text.join ' ' words).length < 2 ^ 64 := by rwa [Text.join_splitOn]
  refine ⟨?_, fun j hj => ⟨?_, least_lt hW hlength j, fun i hi => ⟨?_, ?_, fun hwide k hk => ?_⟩⟩⟩
  · have hlayout := layout_take hW hlength (Nat.le_refl words.length)
    rw [List.take_length] at hlayout
    rw [ragged, hlayout, List.reverse_reverse]
    rfl
  · rw [layout_take hW hlength hj]
  · exact (penalty_lt ((lengthBetween_le words i j).trans_lt hlength) W).trans (by decide)
  · exact (slack_lt hW _).trans (by decide)
  · exact least_lt_breakCost hk hi hj hwide

theorem ragged_eq_exhaustive_overlong :
    let t := "a bbbbbbbbbbbb c".toList
    t.length < 2 ^ 64 ∧ 5 < 2 ^ 64 ∧ ragged t 5 = exhaustive t 5 ∧
    exhaustive t 5 = ["a".toList, "bbbbbbbbbbbb".toList, "c".toList] ∧
    5 < lengthBetween (Text.splitOn ' ' t) 1 2 ∧
    least 5 (Text.splitOn ' ' t) 2 < breakCost 5 (Text.splitOn ' ' t) 0 2 := by
  intro t
  have ht : t.length < 2 ^ 64 := by decide
  have hwide : 5 < lengthBetween (Text.splitOn ' ' t) 1 2 := by decide
  obtain ⟨heq, hleast⟩ := ragged_eq_exhaustive ht (show 5 < 2 ^ 64 by decide)
  obtain ⟨-, -, hbreaks⟩ := hleast 2 (by decide)
  obtain ⟨-, -, hskipped⟩ := hbreaks 1 (by decide)
  exact ⟨ht, by decide, heq, heq ▸ by decide, hwide, hskipped hwide 0 (by decide)⟩

end Reflow.Break
