import Reflow.Break.Greedy
import Reflow.Break.Ragged
import Reflow.Proofs.Text.Split

/-!
# The lines of a text

Both ways to break a text give lines that make up the text: `Breaks t ls` says that `t` consists of
the lines `ls` with a space after each of them but the last, and perhaps further spaces in front of
them.  Empty lines at the end are dropped after that, of which a text that ends in a word has none.
-/

namespace Reflow.Break

/-- A text consists of lines with a space after each but the last one, and spaces before them. -/
inductive Breaks : Text → List Text → Prop
  | last (line : Text) : Breaks line [line]
  | skip {t : Text} {ls : List Text} (h : Breaks t ls) : Breaks (' ' :: t) ls
  | cons (line : Text) {t : Text} {ls : List Text} (h : Breaks t ls) :
      Breaks (line ++ ' ' :: t) (line :: ls)

namespace Breaks

variable {t line : Text} {ls : List Text}

theorem ne_nil (h : Breaks t ls) : ls ≠ [] := by
  induction h with
  | last line => simp
  | skip h ih => exact ih
  | cons line h ih => simp

theorem mem (h : Breaks t ls) (hline : line ∈ ls) {c : Char} (hc : c ∈ line) : c ∈ t := by
  induction h with
  | last line =>
    rw [List.mem_singleton] at hline
    rwa [hline] at hc
  | skip h ih => exact List.mem_cons_of_mem _ (ih hline)
  | cons line h ih =>
    rcases List.mem_cons.mp hline with rfl | hline
    · exact List.mem_append_left _ hc
    · exact List.mem_append_right _ (List.mem_cons_of_mem _ (ih hline))

theorem filter_flatten (h : Breaks t ls) :
    ls.flatten.filter (fun c => c ≠ ' ') = t.filter fun c => c ≠ ' ' := by
  induction h with
  | last line => simp
  | skip h ih => simpa using ih
  | cons line h ih => simpa using ih

theorem take_head {n : Nat} (h : Breaks t (line :: ls)) (hn : n ≤ t.length) (hspace : ' ' ∉ t.take n) :
    n ≤ line.length ∧ line.take n = t.take n := by
  generalize hlines : line :: ls = lines at h
  induction h with
  | last last =>
    obtain ⟨rfl, -⟩ := List.cons.inj hlines
    exact ⟨hn, rfl⟩
  | @skip t lines h ih =>
    cases n with
    | zero => simp
    | succ n => simp at hspace
  | @cons first t lines h ih =>
    obtain ⟨rfl, -⟩ := List.cons.inj hlines
    have hle : n ≤ line.length := by
      by_contra hlt
      refine hspace (List.mem_take_iff_getElem.mpr ⟨line.length, ?_, by simp⟩)
      rw [List.length_append, List.length_cons]
      omega
    exact ⟨hle, (List.take_append_of_le_length hle).symm⟩

theorem getLast?_ne_nil (h : Breaks t ls) (ht : t ≠ []) (hend : t.getLast? ≠ some ' ') :
    ls.getLast? ≠ some [] := by
  induction h with
  | last line => simpa using ht
  | @skip t ls h ih =>
    by_cases ht' : t = []
    · simp [ht'] at hend
    · refine ih ht' ?_
      rwa [List.getLast?_cons_of_ne_nil ht'] at hend
  | @cons line t ls h ih =>
    rw [List.getLast?_cons_of_ne_nil h.ne_nil]
    rw [List.getLast?_append] at hend
    by_cases ht' : t = []
    · simp [ht'] at hend
    · refine ih ht' ?_
      rw [List.getLast?_cons_of_ne_nil ht'] at hend
      intro hsome
      rw [hsome] at hend
      simp at hend

theorem dropTrailingEmpty_eq_self (h : Breaks t ls) (ht : t ≠ []) (hend : t.getLast? ≠ some ' ') :
    Text.dropTrailingEmpty ls = ls := by
  have hlast := h.getLast?_ne_nil ht hend
  rw [← List.head?_reverse] at hlast
  rw [Text.dropTrailingEmpty]
  cases hr : ls.reverse with
  | nil => rw [List.reverse_eq_nil_iff.mp hr]; rfl
  | cons line ls' =>
    rw [hr, List.head?_cons, ne_eq, Option.some.injEq] at hlast
    rw [List.dropWhile_cons_of_neg (by simpa using hlast), ← hr, List.reverse_reverse]

end Breaks

/-! ## Greedy breaking -/

variable {width : Nat} {t line rest : Text}

theorem fill_of_le (h : t.length ≤ width) : fill width t = [t] := by
  rw [fill.eq_def, if_pos h]

theorem fill_space (h : width < (' ' :: t).length) : fill width (' ' :: t) = fill width t := by
  rw [fill, if_neg (Nat.not_le.mpr h)]

theorem fill_cut (h : width < t.length) (hspace : t.head? ≠ some ' ')
    (hcut : cutLine? width t = some (line, rest)) : fill width t = line :: fill width rest := by
  rw [fill.eq_def, if_neg (Nat.not_le.mpr h)]
  split
  · exact absurd rfl hspace
  · split
    · rename_i hcut'
      rw [hcut, Option.some.injEq, Prod.mk.injEq] at hcut'
      rw [hcut'.1, hcut'.2]
    · rename_i hcut'
      rw [hcut] at hcut'
      cases hcut'

theorem fill_uncut (h : width < t.length) (hspace : t.head? ≠ some ' ')
    (hcut : cutLine? width t = none) : fill width t = [t] := by
  rw [fill.eq_def, if_neg (Nat.not_le.mpr h)]
  split
  · exact absurd rfl hspace
  · split
    · rename_i hcut'
      rw [hcut] at hcut'
      cases hcut'
    · rfl

theorem breaks_fill (width : Nat) (t : Text) : Breaks t (fill width t) := by
  generalize hn : t.length = n
  induction n using Nat.strong_induction_on generalizing t with
  | _ n ih =>
    by_cases hle : t.length ≤ width
    · rw [fill_of_le hle]
      exact .last t
    · rw [Nat.not_le] at hle
      by_cases hspace : t.head? = some ' '
      · obtain ⟨rest, rfl⟩ : ∃ rest, t = ' ' :: rest := by
          cases t with
          | nil => simp at hspace
          | cons c rest => exact ⟨rest, by simpa using hspace⟩
        rw [fill_space hle]
        exact (ih rest.length (by simp [← hn]) rest rfl).skip
      · cases hcut : cutLine? width t with
        | none =>
          rw [fill_uncut hle hspace hcut]
          exact .last t
        | some cut =>
          obtain ⟨line, rest⟩ := cut
          have heq := eq_of_cutLine? hcut
          rw [fill_cut hle hspace hcut]
          have hlen : rest.length < n := by
            rw [← hn, heq, List.length_append, List.length_cons]
            omega
          have := (ih rest.length hlen rest rfl).cons line
          rwa [← heq] at this

/-! ## Ragged breaking -/

/-- A layout has the given words, and no line without words. -/
def Covers (l : Layout) (words : List Text) : Prop :=
  l.lines.reverse.flatten = words ∧ ∀ line ∈ l.lines, line ≠ []

def wordsOf (steps : List Step) : List Text :=
  (steps.map Step.word).reverse

/-- Each step carries a layout of the words before it. -/
def Sound : List Step → Prop
  | [] => True
  | step :: steps => Covers step.before (wordsOf steps) ∧ Sound steps

theorem wordsOf_cons (step : Step) (steps : List Step) :
    wordsOf (step :: steps) = wordsOf steps ++ [step.word] := by
  simp [wordsOf]

theorem Covers.append {l : Layout} {words line : List Text} (h : Covers l words) (hline : line ≠ [])
    (cost : Nat) : Covers ⟨cost, line :: l.lines⟩ (words ++ line) := by
  refine ⟨by simp [h.1], fun line' hline' => ?_⟩
  rcases List.mem_cons.mp hline' with rfl | hline'
  · exact hline
  · exact h.2 line' hline'

theorem covers_bestFrom {width : Nat} {steps : List Step} {line : List Text} {length : Nat}
    {best : Layout} (hsteps : Sound steps) (hline : line ≠ [])
    (hbest : Covers best (wordsOf steps ++ line)) :
    Covers (bestFrom width steps line length best) (wordsOf steps ++ line) := by
  induction steps generalizing line length best with
  | nil => exact hbest
  | cons step steps ih =>
    obtain ⟨hbefore, hsound⟩ := hsteps
    rw [wordsOf_cons, List.append_assoc, List.singleton_append] at hbest ⊢
    rw [bestFrom]
    have hnext : ∀ cost : Nat, Covers
        (if cost ≤ best.cost then ⟨cost, (step.word :: line) :: step.before.lines⟩ else best)
        (wordsOf steps ++ step.word :: line) := by
      intro cost
      split
      · exact hbefore.append (by simp) _
      · exact hbest
    split
    · exact hnext _
    · exact ih hsound (by simp) (hnext _)

theorem covers_bestEnding {width : Nat} {step : Step} {steps : List Step} (hsteps : Sound steps)
    (hbefore : Covers step.before (wordsOf steps)) :
    Covers (bestEnding width step steps) (wordsOf (step :: steps)) := by
  rw [wordsOf_cons, bestEnding]
  have honly : ∀ cost, Covers ⟨cost, [step.word] :: step.before.lines⟩ (wordsOf steps ++ [step.word]) :=
    fun cost => hbefore.append (by simp) cost
  split
  · exact honly _
  · exact covers_bestFrom hsteps (by simp) (honly _)

theorem covers_layoutFrom {width : Nat} {steps : List Step} {best : Layout} {words : List Text}
    (hsteps : Sound steps) (hbest : Covers best (wordsOf steps)) :
    Covers (layoutFrom width steps best words) (wordsOf steps ++ words) := by
  induction words generalizing steps best with
  | nil => simpa [layoutFrom] using hbest
  | cons word words ih =>
    have hstep : Covers (bestEnding width ⟨word, best⟩ steps) (wordsOf (⟨word, best⟩ :: steps)) :=
      covers_bestEnding hsteps hbest
    have hsound : Sound (⟨word, best⟩ :: steps) := ⟨hbest, hsteps⟩
    have := ih hsound hstep
    rwa [wordsOf_cons, List.append_assoc, List.singleton_append] at this

theorem covers_layout (width : Nat) (words : List Text) : Covers (layout width words) words := by
  have hempty : Covers .empty (wordsOf []) := ⟨rfl, by simp [Layout.empty]⟩
  have hsound : Sound [] := trivial
  exact covers_layoutFrom hsound hempty

theorem breaks_join {ls : List Text} (h : ls ≠ []) : Breaks (Text.join ' ' ls) ls := by
  induction ls with
  | nil => exact absurd rfl h
  | cons line ls ih =>
    by_cases hls : ls = []
    · subst hls
      simpa using Breaks.last line
    · rw [Text.join_cons hls]
      exact .cons line (ih hls)

theorem breaks_ragged (width : Nat) (t : Text) :
    Breaks t ((layout width (Text.splitOn ' ' t)).lines.reverse.map (Text.join ' ')) := by
  obtain ⟨hflat, hne⟩ := covers_layout width (Text.splitOn ' ' t)
  have hlines : (layout width (Text.splitOn ' ' t)).lines.reverse ≠ [] := by
    intro hempty
    rw [hempty] at hflat
    exact Text.split_ne_nil _ _ hflat.symm
  have hmap : (layout width (Text.splitOn ' ' t)).lines.reverse.map (Text.join ' ') ≠ [] := by
    simpa using hlines
  have := breaks_join hmap
  rwa [Text.join_map_join fun g hg => hne g (List.mem_reverse.mp hg), hflat, Text.join_splitOn] at this

end Reflow.Break
