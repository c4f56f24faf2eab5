import Reflow.Proofs.Break.Checked
import Reflow.Proofs.Buffer.WholeLines
import Reflow.Proofs.Wrapper.Layout

/-!
# The paragraph around the caret

A paragraph is a run of lines with words that goes as far as it can both ways (`IsParagraph`).  Each line with
words is in one paragraph, and that is the one which is found (`Markers.paragraph?_eq_some_iff`), so the paragraphs
part the lines with words (`Markers.paragraphs_part_lines`).  When one is wrapped, the lines before it and after it
stay what they are (`Buffer.wrapParagraph_frame`).
-/

namespace Reflow

open Text

/-! ## Runs of lines -/

section

variable {α : Type} (p : α → Bool) (l : List α)

theorem any_getElem?_of_lt_takeWhile {i : Nat} (h : i < (l.takeWhile p).length) : l[i]?.any p = true := by
  have hget : (l.takeWhile p ++ l.dropWhile p)[i]? = _ := List.getElem?_append_left h
  rw [List.takeWhile_append_dropWhile, List.getElem?_eq_getElem h] at hget
  rw [hget, Option.any_some]
  exact List.all_eq_true.mp List.all_takeWhile _ (List.getElem_mem h)

theorem any_getElem?_takeWhile : l[(l.takeWhile p).length]?.any p = false := by
  have hget : (l.takeWhile p ++ l.dropWhile p)[(l.takeWhile p).length]? = _ :=
    List.getElem?_append_right (Nat.le_refl _)
  have hnot := List.head?_dropWhile_not p l
  rw [List.takeWhile_append_dropWhile, Nat.sub_self, ← List.head?_eq_getElem?] at hget
  rw [hget]
  cases hhead : (l.dropWhile p).head? with
  | none => rfl
  | some a =>
    rw [hhead] at hnot
    simpa using hnot

end

/-- Whether there is a line of a number that holds more than an indent. -/
def Markers.holdsWords (markers : Markers) (ls : List Text) (n : Nat) : Bool :=
  ls[n]?.any fun line => !markers.isBare line

theorem Markers.lt_length_of_holdsWords {markers : Markers} {ls : List Text} {n : Nat}
    (h : markers.holdsWords ls n = true) : n < ls.length := by
  by_contra hge
  rw [holdsWords, List.getElem?_eq_none (Nat.le_of_not_lt hge)] at h
  exact Bool.false_ne_true h

/-- The lines from the first to the last hold words, a given line is one of them, and neither the line before
them nor the one after them holds words. -/
structure IsParagraph (markers : Markers) (ls : List Text) (n first last : Nat) : Prop where
  first_le : first ≤ n
  le_last : n ≤ last
  words : ∀ k, first ≤ k → k ≤ last → markers.holdsWords ls k = true
  above : ∀ k, k + 1 = first → markers.holdsWords ls k = false
  below : markers.holdsWords ls (last + 1) = false

variable {markers : Markers} {ls : List Text} {n first last first' last' : Nat}

namespace IsParagraph

theorem first_le_last (h : IsParagraph markers ls n first last) : first ≤ last :=
  Nat.le_trans h.first_le h.le_last

theorem last_lt_length (h : IsParagraph markers ls n first last) : last < ls.length :=
  Markers.lt_length_of_holdsWords (h.words last h.first_le_last (Nat.le_refl _))

theorem first_le_first (h : IsParagraph markers ls n first last) (h' : IsParagraph markers ls n first' last') :
    first ≤ first' := by
  by_contra hlt
  obtain ⟨k, hk⟩ := Nat.exists_eq_add_of_lt (Nat.lt_of_not_le hlt)
  have hwords := h'.words (first' + k) (Nat.le_add_right _ _) ?_
  · rw [h.above _ hk.symm] at hwords
    exact Bool.false_ne_true hwords
  · have := h.first_le
    have := h'.le_last
    omega

theorem last_le_last (h : IsParagraph markers ls n first last) (h' : IsParagraph markers ls n first' last') :
    last' ≤ last := by
  by_contra hlt
  have hwords := h'.words (last + 1) ?_ (Nat.lt_of_not_le hlt)
  · rw [h.below] at hwords
    exact Bool.false_ne_true hwords
  · have := h.le_last
    have := h'.first_le
    omega

theorem of_between {k : Nat} (h : IsParagraph markers ls n first last) (hfirst : first ≤ k) (hlast : k ≤ last) :
    IsParagraph markers ls k first last :=
  { h with first_le := hfirst, le_last := hlast }

theorem unique (h : IsParagraph markers ls n first last) (h' : IsParagraph markers ls n first' last') :
    first = first' ∧ last = last' :=
  ⟨Nat.le_antisymm (h.first_le_first h') (h'.first_le_first h),
    Nat.le_antisymm (h'.last_le_last h) (h.last_le_last h')⟩

/-- Two paragraphs are the same, or the later one begins after a line without words that comes after the earlier
one. -/
theorem same_or_apart {m : Nat} (hle : m ≤ n) (h : IsParagraph markers ls m first last)
    (h' : IsParagraph markers ls n first' last') :
    (first = first' ∧ last = last' ∧ ∀ k, m ≤ k → k ≤ n → markers.holdsWords ls k = true) ∨
    (last < first' ∧ ∃ k, m < k ∧ k < n ∧ markers.holdsWords ls k = false) := by
  by_cases hn : n ≤ last
  · obtain ⟨rfl, rfl⟩ := (h.of_between (Nat.le_trans h.first_le hle) hn).unique h'
    exact .inl ⟨rfl, rfl, fun k hk hk' => h.words k (Nat.le_trans h.first_le hk) (Nat.le_trans hk' hn)⟩
  · have hlt : last + 1 < n := by
      refine Nat.lt_of_le_of_ne (Nat.lt_of_not_le hn) ?_
      rintro rfl
      exact Bool.false_ne_true (h.below.symm.trans (h'.words _ h'.first_le h'.le_last))
    refine .inr ⟨?_, last + 1, Nat.lt_succ_of_le h.le_last, hlt, h.below⟩
    by_contra hge
    have hwords := h'.words (last + 1) (by omega) (Nat.le_trans (Nat.le_of_lt hlt) h'.le_last)
    exact Bool.false_ne_true (h.below.symm.trans hwords)

end IsParagraph

namespace Markers

theorem holdsWords_above (markers : Markers) (hn : n ≤ ls.length) :
    let rise := ((ls.take n).reverse.takeWhile fun line => !markers.isBare line).length
    (∀ k, n - rise ≤ k → k < n → markers.holdsWords ls k = true) ∧
    ∀ k, k + 1 = n - rise → markers.holdsWords ls k = false := by
  intro rise
  have hget (i : Nat) (hi : i < n) : (ls.take n).reverse[i]? = ls[n - 1 - i]? := by
    rw [List.getElem?_reverse (by rwa [List.length_take_of_le hn]), List.length_take_of_le hn,
      List.getElem?_take_of_lt (by omega)]
  constructor
  · intro k hk hlt
    have h := any_getElem?_of_lt_takeWhile (fun line => !markers.isBare line) (ls.take n).reverse
      (show n - 1 - k < rise by omega)
    rwa [hget _ (by omega), Nat.sub_sub_self (by omega)] at h
  · intro k hk
    have h := any_getElem?_takeWhile (fun line => !markers.isBare line) (ls.take n).reverse
    have hindex : n - 1 - rise = k := by omega
    rwa [hget _ (by omega), hindex] at h

theorem holdsWords_below (markers : Markers) (ls : List Text) (n : Nat) :
    let fall := ((ls.drop (n + 1)).takeWhile fun line => !markers.isBare line).length
    (∀ k, n < k → k ≤ n + fall → markers.holdsWords ls k = true) ∧ markers.holdsWords ls (n + fall + 1) = false := by
  intro fall
  constructor
  · intro k hlt hk
    have h := any_getElem?_of_lt_takeWhile (fun line => !markers.isBare line) (ls.drop (n + 1))
      (show k - (n + 1) < fall by omega)
    rwa [List.getElem?_drop, Nat.add_sub_cancel' hlt] at h
  · have h := any_getElem?_takeWhile (fun line => !markers.isBare line) (ls.drop (n + 1))
    rwa [List.getElem?_drop, Nat.add_right_comm] at h

theorem exists_paragraph? (h : markers.holdsWords ls n = true) :
    ∃ first last, markers.paragraph? ls n = some (first, last) ∧ IsParagraph markers ls n first last := by
  obtain ⟨hrise, habove⟩ := holdsWords_above markers (Nat.le_of_lt (lt_length_of_holdsWords h))
  obtain ⟨hfall, hbelow⟩ := holdsWords_below markers ls n
  refine ⟨_, _, if_pos h, Nat.sub_le _ _, Nat.le_add_right _ _, fun k hk hk' => ?_, habove, hbelow⟩
  rcases Nat.lt_trichotomy k n with hlt | rfl | hgt
  · exact hrise k hk hlt
  · exact h
  · exact hfall k hgt hk'

theorem paragraph?_of_not_holdsWords (h : markers.holdsWords ls n = false) : markers.paragraph? ls n = none :=
  if_neg (Bool.eq_false_iff.mp h)

theorem paragraph?_eq_some_iff :
    markers.paragraph? ls n = some (first, last) ↔ IsParagraph markers ls n first last := by
  constructor
  · intro h
    cases hwords : markers.holdsWords ls n with
    | false =>
      rw [paragraph?_of_not_holdsWords hwords] at h
      cases h
    | true =>
      obtain ⟨first', last', hfound, hparagraph⟩ := exists_paragraph? hwords
      cases hfound.symm.trans h
      exact hparagraph
  · intro h
    obtain ⟨first', last', hfound, hparagraph⟩ := exists_paragraph? (h.words n h.first_le h.le_last)
    obtain ⟨rfl, rfl⟩ := h.unique hparagraph
    exact hfound

theorem paragraph?_eq_none_iff :
    markers.paragraph? ls n = none ↔ ∀ line ∈ ls[n]?, markers.isBare line = true := by
  have hwords : markers.holdsWords ls n = false ↔ ∀ line ∈ ls[n]?, markers.isBare line = true := by
    rw [holdsWords]
    cases ls[n]? with
    | none => simp
    | some line => simp
  rw [← hwords]
  cases h : markers.holdsWords ls n with
  | false => exact iff_of_true (paragraph?_of_not_holdsWords h) rfl
  | true =>
    obtain ⟨first, last, hfound, -⟩ := exists_paragraph? h
    rw [hfound]
    exact iff_of_false nofun nofun

/-- The search for a paragraph, which never looks up a line that is not there, finds none just for a line past
the end and for a bare line.  What it finds is the one range of lines with words around the line that no line
with words can be added to.  So two lines with words are in the same paragraph if all lines between them hold
words, and in paragraphs one after the other if some line between them is bare. -/
theorem paragraphs_part_lines (markers : Markers) (ls : List Text) :
    (∀ n, markers.checkedParagraph? ls n = some (markers.paragraph? ls n)) ∧
    (∀ n, markers.paragraph? ls n = none ↔ ∀ line ∈ ls[n]?, markers.isBare line = true) ∧
    (∀ n first last, markers.paragraph? ls n = some (first, last) ↔ IsParagraph markers ls n first last) ∧
    ∀ m n first last first' last', m ≤ n → markers.paragraph? ls m = some (first, last) →
      markers.paragraph? ls n = some (first', last') →
      ((∀ k, m < k → k < n → markers.holdsWords ls k = true) → first = first' ∧ last = last') ∧
      ((∃ k, m < k ∧ k < n ∧ markers.holdsWords ls k = false) → last < first') := by
  refine ⟨markers.checkedParagraph?_eq ls, fun _ => paragraph?_eq_none_iff, fun _ _ _ => paragraph?_eq_some_iff, ?_⟩
  intro m n first last first' last' hle hm hn
  rw [paragraph?_eq_some_iff] at hm hn
  rcases hm.same_or_apart hle hn with ⟨hfirst, hlast, hbetween⟩ | ⟨hlt, k, hk, hk', hbare⟩
  · refine ⟨fun _ => ⟨hfirst, hlast⟩, ?_⟩
    rintro ⟨k, hk, hk', hbare⟩
    exact absurd (hbare.symm.trans (hbetween k (Nat.le_of_lt hk) (Nat.le_of_lt hk'))) Bool.false_ne_true
  · refine ⟨fun hwords => ?_, fun _ => hlt⟩
    exact absurd (hbare.symm.trans (hwords k hk hk')) Bool.false_ne_true

/-- The comment in the middle ends at a line that is only a leader, and the words after that line are apart. -/
theorem paragraphs_part_lines_comment :
    let ls := ["//", "// a", "// b", "//", "c"].map String.toList
    code.checkedParagraph? ls 1 = some (code.paragraph? ls 1) ∧ code.paragraph? ls 3 = none ∧
    IsParagraph code ls 2 1 2 ∧ code.paragraph? ls 1 = code.paragraph? ls 2 ∧
    ∃ first last, code.paragraph? ls 4 = some (first, last) ∧ 2 < first := by
  intro ls
  obtain ⟨hloops, hnone, hsome, hpart⟩ := paragraphs_part_lines code ls
  have hcomment : code.paragraph? ls 2 = some (1, 2) := by decide
  have hwords : code.holdsWords ls 1 = true ∧ code.holdsWords ls 4 = true := by decide
  obtain ⟨first, last, hfirst, -⟩ := exists_paragraph? hwords.1
  obtain ⟨first', last', hlast, -⟩ := exists_paragraph? hwords.2
  obtain ⟨hsame, -⟩ := hpart 1 2 _ _ _ _ (by decide) hfirst hcomment
  obtain ⟨-, hapart⟩ := hpart 2 4 _ _ _ _ (by decide) hcomment hlast
  refine ⟨hloops 1, (hnone 3).mpr (by decide), (hsome 2 1 2).mp hcomment, ?_, first', last', hlast, ?_⟩
  · obtain ⟨rfl, rfl⟩ := hsame fun k hk hk' => absurd hk' (Nat.not_lt_of_le hk)
    exact hfirst.trans hcomment.symm
  · exact hapart ⟨3, by decide, by decide, by decide⟩

end Markers

/-! ## Wrapping a paragraph -/

namespace Buffer

variable {b : Buffer} {w : Wrapper}

theorem holdsWords_lines (markers : Markers) (hn : n < b.lines.length) :
    markers.holdsWords b.lines n = !markers.isBare (b.line n) := by
  rw [Markers.holdsWords, getElem?_lines hn, Option.any_some]

theorem not_blank_of_isParagraph (h : IsParagraph markers b.lines n first last) :
    (b.linesText first last).all isBlank = false := by
  have hlt := Nat.lt_of_le_of_lt h.le_last h.last_lt_length
  have hwords := h.words n h.first_le h.le_last
  rw [holdsWords_lines _ hlt, Bool.not_eq_true'] at hwords
  obtain ⟨c, hc, hblank⟩ := exists_word_of_not_isBare hwords
  have hmem : c ∈ b.linesText first last :=
    mem_join_of_mem (line_mem_linesIn h.first_le h.le_last h.last_lt_length) (Markers.mem_of_mem_rest hc)
  exact List.all_eq_false.mpr ⟨c, hmem, by rw [hblank]; exact Bool.false_ne_true⟩

theorem wrapParagraph_of_isParagraph (h : IsParagraph w.markers b.lines b.caret.line first last) :
    b.wrapParagraph w none =
      let t := b.linesText first last
      let last' := first + (Text.lines (w.wrap t)).length - 1
      if w.wrap t = t then (b, .unchanged)
      else (b.splice first last (Text.lines (w.wrap t)) ⟨last', (Text.lastLine (w.wrap t)).length⟩,
        .wrapped first last') := by
  have hwrap : b.wrapParagraph w none = b.wrapIn w (.ofLines b.lines first last) := by
    simp only [wrapParagraph, filled?, Option.filter_none, Markers.paragraph?_eq_some_iff.mpr h]
  rw [hwrap, wrapIn_ofLines h.first_le_last h.last_lt_length]
  simp only [not_blank_of_isParagraph h, Bool.false_or, decide_eq_true_eq]

theorem wrapParagraph_of_isBare (h : w.markers.holdsWords b.lines b.caret.line = false) :
    b.wrapParagraph w none = (b, .unchanged) := by
  simp only [wrapParagraph, filled?, Option.filter_none, Markers.paragraph?_of_not_holdsWords h]

theorem linesIn_splice {caret : Position} (hfirst : first ≤ b.lines.length) (t : Text) :
    let b' := b.splice first last (Text.lines t) caret
    let last' := first + (Text.lines t).length - 1
    linesIn b'.lines first last' = Text.lines t ∧ b'.lineLength last' = (Text.lastLine t).length := by
  intro b' last'
  have hlength : (b.lines.take first).length = first := List.length_take_of_le hfirst
  have hupper : last' = (b.lines.take first ++ upper t).length := by
    rw [List.length_append, hlength, length_upper]
    show first + (Text.lines t).length - 1 = _
    rw [length_lines]
    rfl
  have hlines : b'.lines = b.lines.take first ++ upper t ++ Text.lastLine t :: b.lines.drop (last + 1) := by
    show b.lines.take first ++ Text.lines t ++ b.lines.drop (last + 1) = _
    rw [lines_eq_upper t]
    simp
  constructor
  · rw [linesIn, hlines, hupper, List.take_length_add_append]
    simp [lines_eq_upper, hlength]
  · rw [lineLength, line, hlines, hupper]
    simp

/-- Wrapping the paragraph around the caret changes nothing if the line of the caret is bare or the paragraph comes
out the same.  Otherwise it puts the lines of the wrapped text in place of the paragraph, keeps all other lines,
and leaves the caret at the end of the last line it has put in. -/
theorem wrapParagraph_frame (h : b.Holds b.caret) (w : Wrapper) :
    let r := b.wrapParagraph w none
    (r.2 = .unchanged ↔ w.markers.isBare (b.line b.caret.line) = true ∨
      ∃ first last, IsParagraph w.markers b.lines b.caret.line first last ∧
        w.wrap (b.linesText first last) = b.linesText first last) ∧
    (r.2 = .unchanged → r.1 = b) ∧
    ∀ first last, r.2 = .wrapped first last → ∃ last', IsParagraph w.markers b.lines b.caret.line first last' ∧
      let ls := Text.lines (w.wrap (b.linesText first last'))
      r.1.lines = b.lines.take first ++ ls ++ b.lines.drop (last' + 1) ∧ last + 1 = first + ls.length ∧
      linesIn r.1.lines first last = ls ∧ r.1.caret = ⟨last, r.1.lineLength last⟩ := by
  intro r
  have hwords := holdsWords_lines w.markers h.1
  cases hbare : w.markers.isBare (b.line b.caret.line) with
  | true =>
    have hr : r = (b, .unchanged) := wrapParagraph_of_isBare (by rw [hwords, hbare]; rfl)
    rw [hr]
    exact ⟨iff_of_true rfl (.inl rfl), fun _ => rfl, nofun⟩
  | false =>
    have hholds : w.markers.holdsWords b.lines b.caret.line = true := by
      rw [hwords, hbare]
      rfl
    obtain ⟨first, last, -, hparagraph⟩ := Markers.exists_paragraph? hholds
    have hr : r = _ := wrapParagraph_of_isParagraph hparagraph
    by_cases hsame : w.wrap (b.linesText first last) = b.linesText first last
    · rw [if_pos hsame] at hr
      rw [hr]
      exact ⟨iff_of_true rfl (.inr ⟨first, last, hparagraph, hsame⟩), fun _ => rfl, nofun⟩
    · rw [if_neg hsame] at hr
      rw [hr]
      refine ⟨iff_of_false nofun ?_, nofun, ?_⟩
      · rintro (hbare' | ⟨first', last', hparagraph', hsame'⟩)
        · cases hbare'
        · obtain ⟨rfl, rfl⟩ := hparagraph.unique hparagraph'
          exact hsame hsame'
      · rintro _ _ ⟨⟩
        have hle : first ≤ b.lines.length :=
          Nat.le_of_lt (Nat.lt_of_le_of_lt hparagraph.first_le_last hparagraph.last_lt_length)
        have hpos := List.length_pos_of_ne_nil (lines_ne_nil (t := w.wrap (b.linesText first last)))
        obtain ⟨hlines, hlength⟩ := linesIn_splice hle (w.wrap (b.linesText first last))
        refine ⟨last, hparagraph, rfl, Nat.sub_add_cancel (Nat.le_trans hpos (Nat.le_add_left _ _)), hlines, ?_⟩
        exact congrArg (Position.mk _) hlength.symm

theorem wrap_two_words : (⟨{ width := 4 }, .code⟩ : Wrapper).wrap "aaa bbb".toList = "aaa\nbbb".toList := by
  let w : Wrapper := ⟨{ width := 4 }, .code⟩
  have hexpand : w.expandTabs (LineEnding.normalize "aaa bbb".toList) = "aaa bbb".toList := by decide
  have hpieces : w.pieces "aaa bbb".toList = ["aaa".toList, "bbb".toList] := by
    have hgreedy : Break.greedy? 8 "aaa bbb".toList 4 = some ["aaa".toList, "bbb".toList] := by decide
    exact Break.greedy_eq_of_greedy? (by decide) hgreedy
  rw [Wrapper.wrap_eq_apply,
    Wrapper.expandedWrap_of_pieces rfl hexpand (worded_of_not_isBare (by decide)) (by decide) hpieces]
  decide

/-- The caret is on a line that is a paragraph of its own, and that is broken into two lines. -/
theorem wrapParagraph_frame_two_words :
    let b : Buffer := ⟨["aaa bbb".toList, [], "ccc".toList], ⟨0, 3⟩⟩
    let r := b.wrapParagraph ⟨{ width := 4 }, .code⟩ none
    b.Holds b.caret ∧ r.2 = .wrapped 0 1 ∧ r.1.lines = ["aaa".toList, "bbb".toList, [], "ccc".toList] ∧
    r.1.caret = ⟨1, 3⟩ := by
  intro b r
  have hcaret : b.Holds b.caret := by decide
  have hparagraph : IsParagraph .code b.lines 0 0 0 := Markers.paragraph?_eq_some_iff.mp (by decide)
  have htext : b.linesText 0 0 = "aaa bbb".toList := by decide
  obtain ⟨hunchanged, -, hwrapped⟩ := wrapParagraph_frame hcaret ⟨{ width := 4 }, .code⟩
  cases hr : r.2 with
  | unchanged =>
    rcases hunchanged.mp hr with hbare | ⟨first, last, hparagraph', hsame⟩
    · exact absurd hbare (by decide)
    · obtain ⟨rfl, rfl⟩ := hparagraph.unique hparagraph'
      rw [htext, wrap_two_words] at hsame
      exact absurd hsame (by decide)
  | wrapped first last =>
    obtain ⟨last', hparagraph', hlines, hlast, -, hend⟩ := hwrapped first last hr
    obtain ⟨rfl, rfl⟩ := hparagraph.unique hparagraph'
    rw [htext, wrap_two_words] at hlines hlast
    have hlast' : last = 1 := Nat.add_right_cancel hlast
    have hlines' : r.1.lines = ["aaa".toList, "bbb".toList, [], "ccc".toList] := by
      rw [hlines]
      decide
    refine ⟨hcaret, by rw [hlast'], hlines', ?_⟩
    rw [hend, hlast', lineLength, line, hlines']
    rfl

end Buffer

end Reflow
