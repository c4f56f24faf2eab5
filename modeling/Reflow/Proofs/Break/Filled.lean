import Reflow.Proofs.Break.Checked
import Reflow.Proofs.Text.Strip
import Mathlib.Data.List.Chain

/-!
# Filled lines

What greedy breaking does with a text: its lines hold the words of the text one after the other, no line with a
space is wider than the width, and a line ends only where the next word would make it too wide (`greedy_filled`).

The first word of the next line is found through what the lines make up: the text after a line begins with it
(`Breaks.take_head`).
-/

namespace Reflow.Break

variable {t line rest : Text} {ls : List Text} {width n : Nat}

/-! ## Words between spaces -/

/-- The words of a text that spaces separate: its longest parts without a space. -/
def spaceWords (t : Text) : List Text :=
  Text.fields (fun c => c = ' ') t

/-- The first word of a text, which is empty if the text has no word. -/
def firstWord (t : Text) : Text :=
  (spaceWords t).headD []

theorem spaceWords_append (t u : Text) : spaceWords (t ++ ' ' :: u) = spaceWords t ++ spaceWords u := by
  rw [spaceWords, Text.fields, Text.split_append (by simp), List.filter_append]
  rfl

theorem spaceWords_join (ts : List Text) : spaceWords (Text.join ' ' ts) = ts.flatMap spaceWords := by
  induction ts with
  | nil => rfl
  | cons t ts ih =>
    rcases eq_or_ne ts [] with rfl | hts
    · rw [Text.join_singleton, List.flatMap_singleton]
    · rw [Text.join_cons hts, spaceWords_append, ih, List.flatMap_cons]

theorem spaceWords_of_unbroken (hne : t ≠ []) (h : ' ' ∉ t) : spaceWords t = [t] := by
  have hsplit : ∀ c ∈ t, decide (c = ' ') = false := fun c hc => decide_eq_false fun heq => h (heq ▸ hc)
  rw [spaceWords, Text.fields, Text.split_eq_singleton hsplit, List.filter_cons_of_pos (by simpa using hne),
    List.filter_nil]

theorem Breaks.flatMap_spaceWords (h : Breaks t ls) : ls.flatMap spaceWords = spaceWords t := by
  induction h with
  | last line => simp
  | @skip t ls h ih =>
    rw [ih]
    exact (spaceWords_append [] t).symm
  | cons line h ih => rw [List.flatMap_cons, ih, spaceWords_append]

theorem flatMap_spaceWords_dropTrailingEmpty (ls : List Text) :
    (Text.dropTrailingEmpty ls).flatMap spaceWords = ls.flatMap spaceWords := by
  obtain ⟨n, h⟩ := Text.exists_replicate_of_dropTrailingEmpty ls
  have hempty : (List.replicate n []).flatMap spaceWords = [] := by
    rw [List.flatMap_eq_nil_iff]
    intro t ht
    rw [List.eq_of_mem_replicate ht]
    rfl
  rw [congrArg (List.flatMap spaceWords) h, List.flatMap_append, hempty, List.append_nil]

theorem infix_of_nil_mem_splitOn (ht : t ≠ []) (hstart : t.head? ≠ some ' ') (hend : t.getLast? ≠ some ' ')
    (h : [] ∈ Text.splitOn ' ' t) : [' ', ' '] <:+: t := by
  obtain ⟨x, y, rfl, hx, hy⟩ := Text.exists_around_of_mem_split h
  rw [List.nil_append] at ht hstart hend ⊢
  cases y with
  | nil =>
    rw [List.append_nil] at ht hend
    have hlast := List.getLast?_eq_some_getLast ht
    rw [hlast, of_decide_eq_true (hx _ hlast)] at hend
    exact absurd rfl hend
  | cons c y =>
    have hc : c = ' ' := of_decide_eq_true (hy c rfl)
    rcases List.eq_nil_or_concat' x with rfl | ⟨x, d, rfl⟩
    · rw [hc] at hstart
      exact absurd rfl hstart
    · have hd : d = ' ' := of_decide_eq_true (hx d (by simp))
      exact ⟨x, y, by rw [hc, hd]; simp⟩

theorem le_length_firstWord (hn : n ≤ t.length) (h : ' ' ∉ t.take n) : n ≤ (firstWord t).length := by
  rcases Nat.eq_zero_or_pos n with rfl | hpos
  · exact Nat.zero_le _
  rcases Text.split_cases (fun c => c = ' ') t with hall | ⟨piece, c, rest, rfl, hc, hpiece⟩
  · have hne : t ≠ [] := List.ne_nil_of_length_pos (by omega)
    have hspace : ' ' ∉ t := fun hmem => absurd (hall ' ' hmem) (by decide)
    rw [firstWord, spaceWords_of_unbroken hne hspace, List.headD_cons]
    exact hn
  · rw [decide_eq_true_eq] at hc
    subst hc
    have hle : n ≤ piece.length := by
      by_contra hlt
      refine h (List.mem_take_iff_getElem.mpr ⟨piece.length, ?_, by simp⟩)
      rw [List.length_append, List.length_cons]
      omega
    have hne : piece ≠ [] := List.ne_nil_of_length_pos (by omega)
    have hspace : ' ' ∉ piece := fun hmem => absurd (hpiece ' ' hmem) (by decide)
    rw [firstWord, spaceWords_append, spaceWords_of_unbroken hne hspace, List.singleton_append, List.headD_cons]
    exact hle

/-! ## The lines -/

/-- A line is full if the first word of the next line would make it too wide. -/
def Full (width : Nat) (line next : Text) : Prop :=
  width < line.length + 1 + (firstWord next).length

theorem fits_or_unbroken_fill (width : Nat) (t : Text) :
    ∀ line ∈ fill width t, line.length ≤ width ∨ ' ' ∉ line := by
  induction t using fill_induction with
  | whole t h => simpa using h
  | space t ih => exact ih
  | cut line rest hne hhead hends hlong ih =>
    refine List.forall_mem_cons.mpr ⟨?_, ih⟩
    exact hends.imp And.left And.right

/-- The text after a line that fits begins with a word that would make the line too wide. -/
theorem EndsLine.full (h : EndsLine width line rest) (hlong : width < (line ++ ' ' :: rest).length)
    {next : Text} (hrest : Breaks rest (next :: ls)) : Full width line next := by
  rw [List.length_append, List.length_cons] at hlong
  unfold Full
  rcases h with ⟨hle, hspace⟩ | ⟨hlt, -⟩
  · obtain ⟨hnext, htake⟩ := hrest.take_head (by omega) hspace
    have := le_length_firstWord hnext (htake ▸ hspace)
    omega
  · omega

theorem isChain_fill (width : Nat) (t : Text) : (fill width t).IsChain (Full width) := by
  induction t using fill_induction with
  | whole t h => exact .singleton t
  | space t ih => exact ih
  | cut line rest hne hhead hends hlong ih =>
    refine List.isChain_cons.mpr ⟨fun next hnext => ?_, ih⟩
    obtain ⟨ls, hls⟩ := List.head?_eq_some_iff.mp hnext
    have hbreaks := breaks_fill width rest
    rw [hls] at hbreaks
    exact hends.full hlong hbreaks

/-- Greedy breaking comes to its end after at most one round for each character and one more, without looking past
the ends of the text.  Its lines have the words of the text in order; each of them fits or has no space; and the
first word of the next line would make a line too wide. -/
theorem greedy_filled (t : Text) (width : Nat) :
    greedy? (t.length + 1) t width = some (greedy t width) ∧
    (greedy t width).flatMap spaceWords = spaceWords t ∧
    (∀ line ∈ greedy t width, line.length ≤ max width 1 ∨ ' ' ∉ line) ∧
    (greedy t width).IsChain (Full (max width 1)) := by
  refine ⟨greedy?_eq (Nat.lt_succ_self _) width, ?_, fun line hline => ?_, ?_⟩
  · rw [greedy, flatMap_spaceWords_dropTrailingEmpty]
    exact (breaks_fill _ t).flatMap_spaceWords
  · exact fits_or_unbroken_fill _ t line (Text.mem_of_mem_dropTrailingEmpty hline)
  · obtain ⟨n, h⟩ := Text.exists_replicate_of_dropTrailingEmpty (fill (max width 1) t)
    have hchain := isChain_fill (max width 1) t
    rw [h] at hchain
    exact hchain.left_of_append

end Reflow.Break
