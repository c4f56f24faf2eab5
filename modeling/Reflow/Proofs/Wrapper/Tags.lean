import Reflow.Proofs.Break.Checked
import Reflow.Proofs.Comment.Tags
import Reflow.Proofs.Wrapper.Stable

/-!
# Break tags of a paragraph

A break tag in front of the words of a line counts as part of the indent.  So wrapping takes it off every line of a
paragraph and writes the one of the first line on every line again: the number of tags is kept just if as many are
written as were taken off (`Wrapper.countTags_wrap_iff`).
-/

namespace Reflow

variable {t line : Text} {ls : List Text} {c : Char}

/-- How many break tags without a blank stand in front of the words of a line. -/
def Markers.frontTags (markers : Markers) (line : Text) : Nat :=
  countTags (markers.splitLine line).indent

/-! ## Sums over lines -/

namespace Text

variable {f : Text → Nat} (hf : f [] = 0)
include hf

theorem sum_map_fields (sep : Char → Bool) (t : Text) : ((fields sep t).map f).sum = ((split sep t).map f).sum := by
  rw [fields]
  induction split sep t with
  | nil => rfl
  | cons piece pieces ih =>
    rw [List.map_cons, List.sum_cons, ← ih]
    cases piece with
    | nil => rw [hf, Nat.zero_add]; rfl
    | cons c piece => rfl

theorem sum_map_closedLines (t : Text) : ((closedLines t).map f).sum = ((split isBreak t).map f).sum := by
  unfold closedLines
  split
  · rename_i hlast
    conv => rhs; rw [← List.dropLast_append_getLast? _ hlast]
    rw [List.map_append, List.sum_append]
    simp [hf]
  · rfl

end Text

theorem HasLines.countTags_eq (h : HasLines t ls) : countTags t = (ls.map countTags).sum := by
  have hfeed : ∀ g ∈ tightTags, '\n' ∉ g := by decide
  rcases h with rfl | rfl
  · exact countTags_join hfeed ls
  · rw [countTags_append_cons hfeed, Text.ofLines, countTags_join hfeed]
    rfl

theorem Markers.countTags_eq (t : Text) :
    countTags t = ((Text.closedLines t).map code.frontTags).sum +
      ((Text.fields isBreak t).map fun line => countTags (code.splitLine line).rest).sum := by
  rw [Text.sum_map_closedLines (by decide), Text.sum_map_fields (by decide), ← List.sum_map_add,
    ← sum_countTags_split (fun _ => not_mem_of_isBreak) t]
  exact congrArg List.sum (List.map_congr_left fun line hline =>
    leads_codeLeaders.countTags_splitLine (Text.not_sep_of_mem_split hline))

theorem Markers.frontTags_le_one (hbreak : ∀ c ∈ line, isBreak c = false) : code.frontTags line ≤ 1 :=
  (IndentOf.countTags_append (fun hl _ => hl.isLeaderChar) (indent_splitLine hbreak)).1

theorem Markers.indent_headD (h : Worded t) :
    (code.splitLine ((Text.closedLines t).headD [])).indent = (code.splitLine t).indent := by
  rcases Text.split_cases isBreak t with hall | ⟨first, c, rest, rfl, hc, hfirst⟩
  · rw [Text.closedLines, Text.split_eq_singleton hall]
    split <;> simp_all
  · have hhead : (Text.closedLines (first ++ c :: rest)).head? = some first := by
      obtain ⟨line, ls, hcons⟩ := List.exists_cons_of_ne_nil (Text.split_ne_nil isBreak rest)
      rw [Text.closedLines, Text.split_append hc, Text.split_eq_singleton hfirst, hcons]
      split <;> rfl
    have hindent : ¬Indent first := h first (List.mem_of_mem_head? hhead)
    rw [List.headD_eq_head?_getD, hhead, Option.getD_some, indent_splitLine_append hc hindent]

namespace Wrapper

variable {w : Wrapper}

/-! ## The lines of a paragraph -/

theorem countTags_continued {indent : Text} : countTags (continued indent) = countTags indent := by
  rw [continued]
  split
  · rename_i hopener
    have hopen : '<' ∉ indent := fun hmem => by
      rw [not_isOpener_of_mem hmem (by decide) (by decide)] at hopener
      cases hopener
    rw [countTags_eq_zero hopen, countTags_eq_zero]
    rw [List.mem_append, not_or]
    exact ⟨fun hmem => hopen ((List.takeWhile_sublist _).mem hmem), by decide⟩
  · rfl

theorem sum_countTags_pieces (w : Wrapper) (t : Text) : ((w.pieces t).map countTags).sum = countTags (w.body t) := by
  obtain ⟨ls, hls, heq⟩ := w.exists_breaks t
  obtain ⟨n, hn⟩ := Text.exists_replicate_of_dropTrailingEmpty ls
  have hempty : ((List.replicate n []).map countTags).sum = 0 := by simp [countTags]
  rw [← hls.sum_countTags, heq]
  conv => rhs; rw [hn, List.map_append, List.sum_append, hempty, Nat.add_zero]

theorem IsCode.sum_countTags_breakLines (hw : w.IsCode) (h : Indent (w.markers.splitLine t).indent) :
    ((w.breakLines t).map countTags).sum =
      (w.breakLines t).length * countTags (w.markers.splitLine t).indent + countTags (w.unwrap t) := by
  have hfirst := (IndentOf.countTags_append (fun hl _ => hl.isLeaderChar) h).2
  have hlater : ∀ y, countTags (continued (w.markers.splitLine t).indent ++ y) =
      countTags (w.markers.splitLine t).indent + countTags y := by
    intro y
    have hindent := hw.indent_later (t := t) (by rwa [hw.first_eq])
    rw [hw.later_eq] at hindent
    rw [(IndentOf.countTags_append (fun hl _ => hl.isLeaderChar) hindent).2, countTags_continued]
  have hbody := w.sum_countTags_pieces t
  rw [hw.body_eq] at hbody
  rw [← hbody]
  cases hpieces : w.pieces t with
  | nil => simp [breakLines, hpieces]
  | cons piece pieces =>
    have hlines : (pieces.map fun p => countTags (continued (w.markers.splitLine t).indent ++ p)).sum =
        pieces.length * countTags (w.markers.splitLine t).indent + (pieces.map countTags).sum := by
      simp only [hlater, List.sum_map_add, List.map_const', List.sum_replicate_nat]
    rw [breakLines_of_pieces hpieces, hw.first_eq, hw.later_eq, List.map_cons, List.map_map, List.sum_cons, hfirst,
      List.length_cons, List.length_map, List.map_cons, List.sum_cons, Nat.succ_mul]
    exact (congrArg _ hlines).trans (by omega)

/-! ## A whole text -/

/-- The lines that are written of a text with words hold the tags of its words, and each the one of its first line. -/
theorem IsCode.countTags_wrap (hw : w.IsCode) (htab : '\t' ∉ t) (hmark : tabMark ∉ t) (hne : t ≠ [])
    (hwords : ∀ line ∈ Text.closedLines (LineEnding.normalize t), w.markers.isBare line = false) :
    countTags (w.wrap t) =
      (Text.closedLines (LineEnding.normalize (w.wrap t))).length *
          w.markers.frontTags ((Text.closedLines (LineEnding.normalize t)).headD []) +
        ((Text.fields isBreak (LineEnding.normalize t)).map fun line =>
          countTags (w.markers.splitLine line).rest).sum := by
  have htab' : '\t' ∉ LineEnding.normalize t := fun hmem => htab (LineEnding.mem_of_mem_normalize hmem)
  have hexpanded : w.expandedWrap t = w.wrapExpanded (LineEnding.normalize t) := by
    rw [expandedWrap, expandTabs_eq_self htab']
  have hne' : LineEnding.normalize t ≠ [] := mt LineEnding.normalize_eq_nil_iff.mp hne
  have hholds : HoldsWords (LineEnding.normalize t) :=
    fun line hline => exists_word_of_not_isBare (hw.markers ▸ hwords line hline)
  have hlines : HasLines (w.expandedWrap t) (w.breakLines (LineEnding.normalize t)) := by
    rw [hexpanded]
    exact hholds.hasLines hw hne'
  have hcollapse :
      (w.breakLines (LineEnding.normalize t)).map w.collapseTabs = w.breakLines (LineEnding.normalize t) := by
    refine (List.map_congr_left fun line hline => ?_).trans (List.map_id _)
    refine collapseFrom_eq_self fun hmem => ?_
    rcases mem_breakLines hline hmem with hmem | hmade
    · exact hmark (LineEnding.mem_of_mem_normalize hmem)
    · cases hmade
  obtain ⟨hwritten, hproper⟩ := hasLines_wrap hlines (hholds.properLines hw hne')
  rw [hcollapse] at hwritten hproper
  have hindent : Indent (w.markers.splitLine (LineEnding.normalize t)).indent := by
    rw [hw.markers, ← Markers.indent_headD hholds.worded]
    refine Markers.indent_splitLine fun c hc => ?_
    cases hclosed : Text.closedLines (LineEnding.normalize t) with
    | nil =>
      rw [hclosed] at hc
      cases hc
    | cons line ls =>
      rw [hclosed] at hc
      exact Text.not_sep_of_mem_split (Text.mem_split_of_mem_closedLines (hclosed ▸ List.mem_cons_self)) c hc
  rw [hwritten.closedLines_eq hproper, ← countTags_normalize, hwritten.countTags_eq,
    hw.sum_countTags_breakLines hindent, Markers.frontTags, hw.markers, Markers.indent_headD hholds.worded, unwrap,
    countTags_join (by decide), List.map_map, hw.markers]
  rfl

/-- Wrapping a text with words on every line takes the break tag in front of each line away, of which there is one at
most, and writes the one of the first line in front of each line that it writes.  The tags among the words are kept.
So the number of tags is kept just if these two numbers are the same. -/
theorem countTags_wrap_iff (hw : w.IsCode) (htab : '\t' ∉ t) (hmark : tabMark ∉ t)
    (hwords : ∀ line ∈ Text.closedLines (LineEnding.normalize t), w.markers.isBare line = false) :
    let lines := Text.closedLines (LineEnding.normalize t)
    let written := Text.closedLines (LineEnding.normalize (w.wrap t))
    let taken := (lines.map w.markers.frontTags).sum
    let added := written.length * w.markers.frontTags (lines.headD [])
    (∀ line ∈ lines, w.markers.frontTags line ≤ 1) ∧ countTags (w.wrap t) + taken = countTags t + added ∧
      (countTags (w.wrap t) = countTags t ↔ taken = added) := by
  intro lines written taken added
  have hsum : countTags (w.wrap t) + taken = countTags t + added := by
    have htext := Markers.countTags_eq (LineEnding.normalize t)
    rw [countTags_normalize, ← hw.markers] at htext
    rcases eq_or_ne t [] with rfl | hne
    · have hwrap : w.wrap [] = [] := rfl
      simp [taken, added, lines, written, hwrap, LineEnding.normalize, Text.closedLines]
    · have hwrap := hw.countTags_wrap htab hmark hne hwords
      rw [htext, hwrap]
      show added + _ + taken = taken + _ + added
      omega
  refine ⟨fun line hline => ?_, hsum, by omega⟩
  rw [hw.markers]
  exact Markers.frontTags_le_one (Text.not_sep_of_mem_split (Text.mem_split_of_mem_closedLines hline))

/-- The tag in front of a paragraph of two lines is written twice. -/
theorem countTags_wrap_ne :
    let w : Wrapper := ⟨{ width := 10 }, .code⟩
    let t := "// <p>aaa bbb".toList
    w.IsCode ∧ '\t' ∉ t ∧ tabMark ∉ t ∧
    (∀ line ∈ Text.closedLines (LineEnding.normalize t), w.markers.isBare line = false) ∧
    Text.closedLines (LineEnding.normalize (w.wrap t)) = ["// <p>aaa".toList, "// <p>bbb".toList] ∧
    countTags (w.wrap t) ≠ countTags t := by
  intro w t
  have hw : w.IsCode := (isCode_of_ofOptions? (o := { width := 10 }) rfl rfl rfl).1
  have hbare : ∀ line ∈ Text.closedLines (LineEnding.normalize t), w.markers.isBare line = false := by decide
  have hpieces : w.pieces t = ["aaa".toList, "bbb".toList] := by
    have hgreedy : Break.greedy? 8 "aaa bbb".toList 4 = some ["aaa".toList, "bbb".toList] := by decide
    exact Break.greedy_eq_of_greedy? (by decide) hgreedy
  have hwritten : Text.closedLines (LineEnding.normalize (w.wrap t)) = ["// <p>aaa".toList, "// <p>bbb".toList] := by
    have hexpand : w.expandTabs (LineEnding.normalize t) = t := by decide
    have hout : w.expandedWrap t = "// <p>aaa\n// <p>bbb".toList := by
      rw [expandedWrap, hexpand, wrapExpanded_of_worded rfl (worded_of_not_isBare (by decide)) (by decide),
        breakLines_of_pieces hpieces]
      decide
    rw [wrap_eq_apply, hout]
    decide
  refine ⟨hw, by decide, by decide, hbare, hwritten, ?_⟩
  obtain ⟨-, -, hiff⟩ := countTags_wrap_iff (t := t) hw (by decide) (by decide) hbare
  rw [ne_eq, hiff, hwritten]
  decide

end Wrapper

end Reflow
