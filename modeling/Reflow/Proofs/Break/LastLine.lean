import Reflow.Proofs.Break.Optimal

/-!
# Where the last line starts

The best layout of some words is a last line after the best layout of the words before it, and its last line
starts at the smallest place of least cost among all places (`exists_leastAt_layout`).  The search goes from the
last place down and takes a place that costs no more; the places that it does not come to cost more than the one
it stops at.  So the first lines of a best layout are the best layout of their own words (`layout_front`).
-/

namespace Reflow.Break

/-! ## The smallest place of least cost -/

/-- Among the places from `low` on and before `high`, the smallest one of least cost. -/
structure LeastAt (cost : Nat → Nat) (low high place : Nat) : Prop where
  low_le : low ≤ place
  lt_high : place < high
  cost_le : ∀ k, low ≤ k → k < high → cost place ≤ cost k
  cost_lt : ∀ k, low ≤ k → k < place → cost place < cost k

namespace LeastAt

variable {cost cost' : Nat → Nat} {low high bound i j : Nat}

theorem unique (h : LeastAt cost low high i) (h' : LeastAt cost low high j) : i = j := by
  rcases Nat.lt_trichotomy i j with hlt | heq | hlt
  · have := h'.cost_lt i h.low_le hlt
    have := h.cost_le j h'.low_le h'.lt_high
    omega
  · exact heq
  · have := h.cost_lt j h'.low_le hlt
    have := h'.cost_le i h.low_le h.lt_high
    omega

theorem singleton (cost : Nat → Nat) (i : Nat) : LeastAt cost i (i + 1) i where
  low_le := Nat.le_refl i
  lt_high := Nat.lt_succ_self i
  cost_le k hlow hhigh := by rw [Nat.le_antisymm (Nat.le_of_lt_succ hhigh) hlow]
  cost_lt k hlow hlt := absurd hlt (Nat.not_lt.mpr hlow)

theorem pred (h : LeastAt cost (low + 1) high i) :
    LeastAt cost low high (if cost low ≤ cost i then low else i) := by
  obtain ⟨hlow, hhigh, hle, hlt⟩ := h
  split
  next hbetter =>
    refine ⟨Nat.le_refl _, by omega, fun k hk hk' => ?_, fun k hk hk' => by omega⟩
    rcases Nat.eq_or_lt_of_le hk with rfl | hk
    · exact Nat.le_refl _
    · exact hbetter.trans (hle k hk hk')
  next hworse =>
    refine ⟨by omega, hhigh, fun k hk hk' => ?_, fun k hk hk' => ?_⟩
    · rcases Nat.eq_or_lt_of_le hk with rfl | hk
      · omega
      · exact hle k hk hk'
    · rcases Nat.eq_or_lt_of_le hk with rfl | hk
      · omega
      · exact hlt k hk hk'

theorem succ (h : LeastAt cost low high i) :
    LeastAt cost low (high + 1) (if cost high < cost i then high else i) := by
  obtain ⟨hlow, hhigh, hle, hlt⟩ := h
  split
  next hbetter =>
    refine ⟨by omega, Nat.lt_succ_self _, fun k hk hk' => ?_, fun k hk hk' => ?_⟩
    · rcases Nat.eq_or_lt_of_le (Nat.le_of_lt_succ hk') with rfl | hk'
      · exact Nat.le_refl _
      · exact (Nat.le_of_lt hbetter).trans (hle k hk hk')
    · exact Nat.lt_of_lt_of_le hbetter (hle k hk hk')
  next hworse =>
    refine ⟨hlow, by omega, fun k hk hk' => ?_, hlt⟩
    rcases Nat.eq_or_lt_of_le (Nat.le_of_lt_succ hk') with rfl | hk'
    · omega
    · exact hle k hk hk'

theorem of_dear (h : LeastAt cost low high i) (hdear : ∀ k, k < low → cost i < cost k) : LeastAt cost 0 high i := by
  obtain ⟨hlow, hhigh, hle, hlt⟩ := h
  refine ⟨Nat.zero_le _, hhigh, fun k _ hk => ?_, fun k _ hk => ?_⟩
  · rcases Nat.lt_or_ge k low with hk' | hk'
    · exact Nat.le_of_lt (hdear k hk')
    · exact hle k hk' hk
  · rcases Nat.lt_or_ge k low with hk' | hk'
    · exact hdear k hk'
    · exact hlt k hk' hk

theorem of_cut (h : LeastAt cost low high i) (hlt : cost i < bound)
    (hcut : ∀ k, k < high → cost' k ≤ cost k ∧ min (cost k) bound ≤ cost' k) : LeastAt cost' low high i := by
  obtain ⟨hi, -⟩ := hcut i h.lt_high
  refine ⟨h.low_le, h.lt_high, fun k hk hk' => ?_, fun k hk hk' => ?_⟩
  · have := h.cost_le k hk hk'
    obtain ⟨-, hge⟩ := hcut k hk'
    omega
  · have := h.cost_lt k hk hk'
    obtain ⟨-, hge⟩ := hcut k (hk'.trans h.lt_high)
    omega

theorem congr (h : LeastAt cost low high i) (heq : ∀ k, k < high → cost' k = cost k) : LeastAt cost' low high i := by
  have hi := heq i h.lt_high
  refine ⟨h.low_le, h.lt_high, fun k hk hk' => ?_, fun k hk hk' => ?_⟩
  · rw [hi, heq k hk']
    exact h.cost_le k hk hk'
  · rw [hi, heq k (hk'.trans h.lt_high)]
    exact h.cost_lt k hk hk'

end LeastAt

/-! ## The layouts before the words -/

variable {width : Nat} {words row : List Text} {step : Step} {steps : List Step} {i : Nat}

/-- Each step carries the best layout of the words before it. -/
def Laid (width : Nat) : List Step → Prop
  | [] => True
  | step :: steps => step.before = layout width (wordsOf steps) ∧ Laid width steps

/-- Laying out some words and more words goes on from steps that carry the layouts of the first ones. -/
theorem exists_steps (width : Nat) (words : List Text) :
    ∃ steps, Laid width steps ∧ wordsOf steps = words ∧ ∀ more,
      layout width (words ++ more) = layoutFrom width steps (layout width words) more := by
  induction words using List.reverseRecOn with
  | nil => exact ⟨[], trivial, rfl, fun more => rfl⟩
  | append_singleton words word ih =>
    obtain ⟨steps, hlaid, rfl, hmore⟩ := ih
    refine ⟨⟨word, layout width (wordsOf steps)⟩ :: steps, ⟨rfl, hlaid⟩, wordsOf_cons _ _, fun more => ?_⟩
    rw [List.append_assoc, hmore, hmore [word]]
    rfl

theorem exists_layout_concat (width : Nat) (words : List Text) (word : Text) :
    ∃ steps, Laid width steps ∧ wordsOf steps = words ∧
      layout width (words ++ [word]) = bestEnding width ⟨word, layout width words⟩ steps := by
  obtain ⟨steps, hlaid, hwords, hmore⟩ := exists_steps width words
  exact ⟨steps, hlaid, hwords, hmore [word]⟩

/-! ## The search -/

/-- The cost of some words if their last line starts at a place, after the best layout of the words before it. -/
def costAt (width : Nat) (words : List Text) (i : Nat) : Nat :=
  lineCost width (layout width (words.take i)).cost (Text.join ' ' (words.drop i)).length

/-- The layout of some words whose last line starts at a place, after the best layout of the words before it. -/
def ending (width : Nat) (words : List Text) (i : Nat) : Layout :=
  ⟨costAt width words i, words.drop i :: (layout width (words.take i)).lines⟩

theorem lineCost_lt_of_wide {before before' length length' : Nat} (hwide : width < length)
    (hlt : length < length') : lineCost width before length < lineCost width before' length' := by
  rw [lineCost, if_pos hwide, lineCost, if_pos (hwide.trans hlt)]
  exact Nat.mul_lt_mul_of_pos_left (by omega) (by decide)

theorem length_join_lt_append {front : List Text} (hfront : front ≠ []) (hrow : row ≠ []) :
    (Text.join ' ' row).length < (Text.join ' ' (front ++ row)).length := by
  rw [Text.join_append hfront hrow, List.length_append, List.length_cons]
  omega

theorem length_wordsOf (steps : List Step) : (wordsOf steps).length = steps.length := by
  simp [wordsOf]

theorem layoutWith_eq_ending (hbefore : step.before = layout width (wordsOf steps)) (row : List Text) :
    step.layoutWith width row = ending width (wordsOf steps ++ row) steps.length := by
  rw [Step.layoutWith, ending, costAt, hbefore, ← length_wordsOf, List.take_left, List.drop_left]

theorem length_join_drop_lt {k : Nat} (hlt : i < k) (hk : k < words.length) :
    (Text.join ' ' (words.drop k)).length < (Text.join ' ' (words.drop i)).length := by
  have hdrop : words.drop i = (words.drop i).take (k - i) ++ words.drop k := by
    have := List.take_append_drop (k - i) (words.drop i)
    rw [List.drop_drop, Nat.add_sub_of_le (Nat.le_of_lt hlt)] at this
    exact this.symm
  rw [hdrop]
  refine length_join_lt_append (List.ne_nil_of_length_pos ?_) (List.ne_nil_of_length_pos ?_)
  · rw [List.length_take, List.length_drop]
    omega
  · rw [List.length_drop]
    omega

/-- A last line that starts before one that is too wide costs more. -/
theorem costAt_lt_of_wide {k : Nat} (hlt : i < k) (hk : k < words.length)
    (hwide : width < (Text.join ' ' (words.drop k)).length) : costAt width words k < costAt width words i :=
  lineCost_lt_of_wide hwide (length_join_drop_lt hlt hk)

/-- From the best place among those from where the row starts, the search finds the best one of all. -/
theorem exists_search (hsteps : Laid width steps) (hrow : row ≠ []) (hwords : wordsOf steps ++ row = words)
    (hi : LeastAt (costAt width words) steps.length words.length i) :
    ∃ place, LeastAt (costAt width words) 0 words.length place ∧
      search width steps row (ending width words i) = ending width words place := by
  induction steps generalizing row i with
  | nil =>
    refine ⟨i, hi, ?_⟩
    unfold search
    split <;> rfl
  | cons step steps ih =>
    obtain ⟨hbefore, hsteps⟩ := hsteps
    have hlength : (step :: steps).length < words.length := hi.low_le.trans_lt hi.lt_high
    have hdrop : words.drop (step :: steps).length = row := by
      rw [← hwords, ← length_wordsOf, List.drop_left]
    rw [search_cons _ _ _ hrow]
    split
    next hwide =>
      refine ⟨i, hi.of_dear fun k hk => ?_, rfl⟩
      have hle := hi.cost_le _ (Nat.le_refl _) hlength
      exact hle.trans_lt (costAt_lt_of_wide hk hlength (by rwa [hdrop]))
    next =>
      rw [wordsOf_cons, List.append_assoc, List.singleton_append] at hwords
      rw [layoutWith_eq_ending hbefore, hwords, cheaper]
      have := ih hsteps (List.cons_ne_nil _ _) hwords hi.pred
      rwa [apply_ite (ending width words)] at this

theorem exists_leastAt_layout (width : Nat) (hne : words ≠ []) :
    ∃ i, LeastAt (costAt width words) 0 words.length i ∧ layout width words = ending width words i := by
  obtain ⟨front, word, rfl⟩ := List.eq_nil_or_concat' words |>.resolve_left hne
  obtain ⟨steps, hlaid, rfl, hlayout⟩ := exists_layout_concat width front word
  rw [hlayout, bestEnding_eq, layoutWith_eq_ending rfl]
  refine exists_search hlaid (List.cons_ne_nil _ _) rfl ?_
  rw [List.length_append, length_wordsOf]
  exact .singleton _ _

/-- The first lines of a best layout are the best layout of their words. -/
theorem layout_front {front back : List (List Text)} (h : (layout width words).lines.reverse = front ++ back) :
    (layout width front.flatten).lines.reverse = front := by
  generalize hn : words.length = n
  induction n using Nat.strong_induction_on generalizing words back with
  | _ n ih =>
    rcases List.eq_nil_or_concat' back with rfl | ⟨back, last, rfl⟩
    · rw [List.append_nil] at h
      rw [← h, (covers_layout width words).1]
    · by_cases hwords : words = []
      · rw [hwords] at h
        exact absurd (congrArg List.length h) (by simp [layout, layoutFrom, Layout.empty])
      · obtain ⟨i, hi, hlayout⟩ := exists_leastAt_layout width hwords
        rw [hlayout, ending, List.reverse_cons, ← List.append_assoc] at h
        have hfront := (List.append_inj' h rfl).1
        refine ih i ?_ hfront ?_
        · rw [← hn]
          exact hi.lt_high
        · rw [List.length_take, Nat.min_eq_left (Nat.le_of_lt hi.lt_high)]

end Reflow.Break
