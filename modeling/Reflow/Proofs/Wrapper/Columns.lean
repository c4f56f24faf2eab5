import Reflow.Proofs.Wrapper.Paragraph
import Reflow.Proofs.Wrapper.Tabs

/-!
# A tab takes up columns

Where tabs stand in front of lines, and of lines without words only at the ends of the text, a text is
wrapped in the same way with tabs and with spaces for them, except for block comments that open after a tab:
their other lines start with the opener again and not with a star.  What is written of each part with tabs
and with spaces is compared (`Wrapper.Compared`): with spaces it is the same if every such comment takes up
one line, and holds fewer slashes if not.  So both are the same if and only if every such comment takes up one line
(`Wrapper.spaceTabs_wrap_iff`).
-/

namespace Reflow

open Pattern (Cut gaps)

namespace Wrapper

variable {w : Wrapper} {s t u : Text} {c : Char}

/-! ## Openers -/

theorem not_isOpener_of_mark (h : tabMark ∈ t) : isOpener t = false :=
  not_isOpener_of_mem h (by decide) (by decide)

theorem mem_slash_of_isOpener (hopener : isOpener t = true) (h : Indent t) : '/' ∈ t := by
  have hmem : ∀ c ∈ Text.trim t, c ∈ t := fun c hc => Text.mem_of_mem_strip hc
  have hquote : ∀ c, isFiller c = false → isLeaderChar c = false → isTagChar c = false → c ∉ t := by
    intro c hfiller hleader htag hc
    rcases h.mem_cases hc with hc | hc | hc
    · rw [hfiller] at hc
      cases hc
    · rw [hleader] at hc
      cases hc
    · rw [htag] at hc
      cases hc
  rcases isOpener_cases hopener with ⟨n, heq⟩ | heq | heq
  · exact hmem '/' (heq ▸ List.mem_cons_self)
  · exact absurd (hmem '"' (heq ▸ List.mem_cons_self)) (hquote '"' (by decide) (by decide) (by decide))
  · exact absurd (hmem '\'' (heq ▸ List.mem_cons_self)) (hquote '\'' (by decide) (by decide) (by decide))

theorem spaced_continued (h : tabMark ∈ t → isOpener (spaced t) = false) :
    spaced (continued t) = continued (spaced t) := by
  by_cases hmark : tabMark ∈ t
  · rw [continued, continued, not_isOpener_of_mark hmark, h hmark]
    rfl
  · have hcontinued : tabMark ∉ continued t := by
      unfold continued
      split
      · rw [List.mem_append, not_or]
        exact ⟨fun hmem => hmark (List.takeWhile_subset _ hmem), by decide⟩
      · exact hmark
    rw [spaced_eq_self hmark, spaced_eq_self hcontinued]

theorem count_spaced (t : Text) : (spaced t).count '/' = t.count '/' := by
  induction t with
  | nil => rfl
  | cons c t ih =>
    show (unmark c :: spaced t).count '/' = _
    by_cases hmark : c = tabMark
    · rw [hmark, List.count_cons_of_ne (by decide), List.count_cons_of_ne (by decide), ih]
    · rw [unmark_of_ne hmark, List.count_cons, List.count_cons, ih]

theorem count_continued_spaced_lt (h : Indent t) (hmark : tabMark ∈ t) (hopener : isOpener (spaced t) = true) :
    (continued (spaced t)).count '/' < (continued t).count '/' := by
  have hpos : 0 < t.count '/' := by
    rw [← count_spaced]
    exact List.count_pos_iff.mpr (mem_slash_of_isOpener hopener h.spaced)
  have hzero : (continued (spaced t)).count '/' = 0 := by
    rw [continued, if_pos hopener, List.count_eq_zero, List.mem_append, not_or]
    refine ⟨fun hmem => ?_, by decide⟩
    exact absurd (isBlank_of_mem List.all_takeWhile hmem) (by decide)
  rw [hzero, continued, not_isOpener_of_mark hmark]
  exact hpos

/-! ## What is written with tabs and with spaces -/

theorem getLast?_spaced_eq_iff : (spaced t).getLast? = some '\n' ↔ t.getLast? = some '\n' := by
  rw [spaced, List.getLast?_map]
  cases t.getLast? with
  | none => simp
  | some c => simp [unmark_eq_lf_iff]

theorem dropFinalBreak_spaced (t : Text) : dropFinalBreak (spaced t) = spaced (dropFinalBreak t) := by
  unfold dropFinalBreak
  by_cases hlast : t.getLast? = some '\n'
  · rw [if_pos hlast, if_pos (getLast?_spaced_eq_iff.mpr hlast), spaced, spaced, List.map_dropLast]
  · rw [if_neg hlast, if_neg (mt getLast?_spaced_eq_iff.mp hlast)]

theorem count_dropFinalBreak (t : Text) : (dropFinalBreak t).count '/' = t.count '/' := by
  rcases dropFinalBreak_cases t with heq | heq
  · rw [← heq]
  · conv => rhs; rw [heq]
    rw [List.count_append]
    rfl

theorem closeLike_spaced (t wrapped : Text) : closeLike (spaced t) (spaced wrapped) = spaced (closeLike t wrapped) := by
  simp only [closeLike, ne_eq, getLast?_spaced_eq_iff]
  split
  · rw [spaced_append]
    rfl
  · rfl

theorem count_closeLike (t wrapped : Text) : (closeLike t wrapped).count '/' = wrapped.count '/' := by
  rcases closeLike_cases t wrapped with heq | heq
  · rw [heq]
  · rw [heq, List.count_append]
    rfl

/-- What is written of a text with marks and what is written of it with spaces for the marks: the same if the
condition holds, and fewer slashes if not. -/
structure Compared (w : Wrapper) (fine : Prop) (tabbed plain : Text) : Prop where
  /-- The marks that are written come from spelling out tabs. -/
  spelled : w.Spelled tabbed
  eq : fine → spaced tabbed = plain
  lt : ¬fine → plain.count '/' < tabbed.count '/'

namespace Compared

variable {fine fine' : Prop} {a a' b b' : Text}

theorem of_spelled (h : w.Spelled a) : Compared w True a (spaced a) :=
  ⟨h, fun _ => rfl, fun hnot => absurd trivial hnot⟩

theorem same (hmark : tabMark ∉ a) (htab : '\t' ∉ a) : Compared w True a a := by
  have h := of_spelled (Spelled.of_not_mem (w := w) hmark htab)
  rwa [spaced_eq_self hmark] at h

theorem congr (h : Compared w fine a b) (hiff : fine' ↔ fine) : Compared w fine' a b := by
  rw [hiff]
  exact h

theorem le (h : Compared w fine a b) : b.count '/' ≤ a.count '/' := by
  by_cases hfine : fine
  · rw [← h.eq hfine, count_spaced]
  · exact Nat.le_of_lt (h.lt hfine)

theorem append (h : Compared w fine a b) (h' : Compared w fine' a' b') :
    Compared w (fine ∧ fine') (a ++ a') (b ++ b') := by
  refine ⟨h.spelled.append h'.spelled, ?_, ?_⟩
  · rintro ⟨hfine, hfine'⟩
    rw [spaced_append, h.eq hfine, h'.eq hfine']
  · intro hnot
    have hle := h.le
    have hle' := h'.le
    rw [List.count_append, List.count_append]
    by_cases hfine : fine
    · have hlt := h'.lt fun hfine' => hnot ⟨hfine, hfine'⟩
      omega
    · have hlt := h.lt hfine
      omega

theorem ite (h : Compared w True a b) (cond : Bool) :
    Compared w True (if cond = true then a else []) (if cond = true then b else []) := by
  cases cond with
  | false => exact same List.not_mem_nil List.not_mem_nil
  | true => exact h

theorem dropFinalBreak (h : Compared w fine a b) :
    Compared w fine (Wrapper.dropFinalBreak a) (Wrapper.dropFinalBreak b) := by
  refine ⟨?_, ?_, ?_⟩
  · rcases dropFinalBreak_cases a with heq | heq
    · rw [← heq]
      exact h.spelled
    · apply Spelled.of_append (v := ['\n']) _ (by decide)
      rw [← heq]
      exact h.spelled
  · intro hfine
    rw [← h.eq hfine, dropFinalBreak_spaced]
  · intro hfine
    rw [count_dropFinalBreak, count_dropFinalBreak]
    exact h.lt hfine

theorem closeLike (h : Compared w fine a b) (t : Text) :
    Compared w fine (Wrapper.closeLike t a) (Wrapper.closeLike (spaced t) b) := by
  refine ⟨?_, ?_, ?_⟩
  · rcases closeLike_cases t a with heq | heq
    · rw [heq]
      exact h.spelled
    · rw [heq]
      exact h.spelled.append (.of_not_mem (by decide) (by decide))
  · intro hfine
    rw [← h.eq hfine, closeLike_spaced]
  · intro hfine
    rw [count_closeLike, count_closeLike]
    exact h.lt hfine

theorem iff_eq (h : Compared w fine a b) : spaced a = b ↔ fine := by
  constructor
  · intro heq
    by_contra hfine
    have hlt := h.lt hfine
    rw [← heq, count_spaced] at hlt
    exact Nat.lt_irrefl _ hlt
  · exact h.eq

end Compared

/-! ## The lines of a stretch -/

theorem compared_continued (h : Indent t) (hspelled : w.Spelled t) :
    Compared w (tabMark ∈ t → isOpener (spaced t) = false) (continued t) (continued (spaced t)) := by
  refine ⟨?_, spaced_continued, ?_⟩
  · unfold continued
    split
    · rename_i hopener
      have hmark : tabMark ∉ t := by
        intro hmem
        rw [not_isOpener_of_mark hmem] at hopener
        cases hopener
      apply Spelled.of_not_mem
      · rw [List.mem_append, not_or]
        exact ⟨fun hmem => hmark (List.takeWhile_subset _ hmem), by decide⟩
      · rw [List.mem_append, not_or]
        exact ⟨fun hmem => hspelled.not_mem_tab (List.takeWhile_subset _ hmem), by decide⟩
    · exact hspelled
  · intro hnot
    rw [Classical.not_imp, Bool.not_eq_false] at hnot
    exact count_continued_spaced_lt h hnot.1 hnot.2

theorem compared_later (h : Indent t) (hspelled : w.Spelled t) {pieces : List Text}
    (hpieces : ∀ piece ∈ pieces, tabMark ∉ piece ∧ '\t' ∉ piece) :
    Compared w (pieces ≠ [] → tabMark ∈ t → isOpener (spaced t) = false)
      (terminated (pieces.map fun piece => continued t ++ piece))
      (terminated (pieces.map fun piece => continued (spaced t) ++ piece)) := by
  induction pieces with
  | nil => exact (Compared.same List.not_mem_nil List.not_mem_nil).congr (by simp)
  | cons piece pieces ih =>
    obtain ⟨hpiece, hpieces⟩ := List.forall_mem_cons.mp hpieces
    have hline := (compared_continued h hspelled).append (.same hpiece.1 hpiece.2)
    have hclosed := hline.append (.same (a := ['\n']) (by decide) (by decide))
    exact (hclosed.append (ih hpieces)).congr (by simp +contextual)

/-- With spaces for the marks the lines are the same, unless an opener comes again. -/
theorem compared_terminated (h : Indent t) (hspelled : w.Spelled t) {piece : Text} {pieces : List Text}
    (hpieces : ∀ line ∈ piece :: pieces, tabMark ∉ line ∧ '\t' ∉ line) :
    Compared w (tabMark ∈ t → isOpener (spaced t) = true → (piece :: pieces).length ≤ 1)
      (terminated ((t ++ piece) :: pieces.map fun piece => continued t ++ piece))
      (terminated ((spaced t ++ piece) :: pieces.map fun piece => continued (spaced t) ++ piece)) := by
  obtain ⟨hpiece, hpieces⟩ := List.forall_mem_cons.mp hpieces
  have hfirst := (Compared.of_spelled hspelled).append (.same hpiece.1 hpiece.2)
  have hclosed := hfirst.append (.same (a := ['\n']) (by decide) (by decide))
  refine (hclosed.append (compared_later h hspelled hpieces)).congr ?_
  cases pieces with
  | nil => simp
  | cons piece' pieces => simp

/-- A block comment that opens after a tab takes up one line. -/
def OpensOnce (w : Wrapper) (s : Text) : Prop :=
  tabMark ∈ (w.markers.splitLine s).indent → isOpener (spaced (w.markers.splitLine s).indent) = true →
    (w.pieces s).length ≤ 1

/-- A bare line that a paragraph begins or ends with when there are spaces for its marks is one that it begins
or ends with as it stands. -/
def KeepsEdges (p : Text) : Prop :=
  ∀ cut ∈ (Markers.code.bareLine.sections p).1,
    (spaced cut.hit <+: spaced p → cut.hit <+: p) ∧ (spaced cut.hit <:+ spaced p → cut.hit <:+ p)

namespace IsCode

variable (hw : w.IsCode)
include hw

theorem exists_rest_of_mem_piece {piece : Text} (hpiece : piece ∈ w.pieces s) (hc : c ∈ piece) :
    c = ' ' ∨ ∃ line ∈ Text.fields isBreak s, c ∈ (Markers.code.splitLine line).rest := by
  obtain ⟨ls, hls, heq⟩ := w.exists_breaks s
  rw [heq] at hpiece
  have hbody : c ∈ w.body s := hls.mem (Text.mem_of_mem_dropTrailingEmpty hpiece) hc
  rw [hw.body_eq, unwrap, hw.markers] at hbody
  rcases Text.mem_join hbody with hspace | ⟨rest, hrest, hmem⟩
  · exact .inl hspace
  · obtain ⟨line, hline, rfl⟩ := List.mem_map.mp hrest
    exact .inr ⟨line, hline, hmem⟩

theorem not_mem_pieces (h : Tidy s) (hspelled : ∀ line ∈ Text.fields isBreak s, w.Spelled line) :
    ∀ piece ∈ w.pieces s, tabMark ∉ piece ∧ '\t' ∉ piece := by
  intro piece hpiece
  constructor
  · intro hmem
    rcases hw.exists_rest_of_mem_piece hpiece hmem with hspace | ⟨line, hline, hrest⟩
    · exact absurd hspace (by decide)
    · exact Markers.not_mem_rest (h line hline).1 hrest
  · intro hmem
    rcases hw.exists_rest_of_mem_piece hpiece hmem with hspace | ⟨line, hline, hrest⟩
    · exact absurd hspace (by decide)
    · exact (hspelled line hline).not_mem_tab (Markers.mem_of_mem_rest hrest)

theorem unwrap_spaced (h : Tidy s) : w.unwrap (spaced s) = w.unwrap s := by
  rw [unwrap, fields_spaced, List.map_map, unwrap, hw.markers]
  congr 1
  apply List.map_congr_left
  intro line hline
  exact (Markers.splitLine_spaced (h line hline).1).2

theorem pieces_spaced (h : Tidy s)
    (hindent : (Markers.code.splitLine (spaced s)).indent = spaced (Markers.code.splitLine s).indent) :
    w.pieces (spaced s) = w.pieces s := by
  have hroom : w.room (spaced s) = w.room s := by
    rw [hw.room_eq, hw.room_eq, hw.markers, hindent, length_spaced]
  rw [pieces, pieces, hroom, hw.body_eq, hw.body_eq, hw.unwrap_spaced h]

theorem compared_breakLines (h : Tidy s) (hspelled : ∀ line ∈ Text.fields isBreak s, w.Spelled line) :
    Compared w (OpensOnce w s) (terminated (w.breakLines s)) (terminated (w.breakLines (spaced s))) := by
  rcases Markers.exists_indent_of_tidy h with hbreaks | ⟨line, hline, hindent, hindent'⟩
  · have hmark : tabMark ∉ s := by
      intro hmem
      exact absurd (hbreaks _ hmem) (by decide)
    have hpieces : w.pieces s = [] := pieces_of_body_nil (body_of_breaks hbreaks)
    rw [spaced_eq_self hmark, breakLines_of_breaks hbreaks]
    refine (Compared.same List.not_mem_nil List.not_mem_nil).congr ?_
    simp [OpensOnce, hpieces]
  · have hplain := hw.not_mem_pieces h hspelled
    have hpieces : w.pieces (spaced s) = w.pieces s := by
      apply hw.pieces_spaced h
      rw [hindent', hindent]
    have hbreak := Text.not_sep_of_mem_split (List.mem_of_mem_filter hline)
    obtain ⟨r, happend, hr⟩ := Markers.exists_indent_append (h line hline).1 hbreak
    have hspelled' : w.Spelled (Markers.code.splitLine line).indent := by
      apply Spelled.of_append (v := r) _ hr
      rw [← happend]
      exact hspelled line hline
    rw [OpensOnce, breakLines, breakLines, hpieces, hw.first_eq, hw.first_eq, hw.later_eq, hw.later_eq, hw.markers,
      hindent', hindent]
    cases hcons : w.pieces s with
    | nil => exact (Compared.same List.not_mem_nil List.not_mem_nil).congr (by simp)
    | cons piece pieces =>
      rw [hcons] at hplain
      exact compared_terminated (Markers.indent_splitLine hbreak) hspelled' hplain

/-! ## Paragraphs -/

theorem compared_wrapBetween {p q last : Text} {cuts : List Cut}
    (hhits : ∀ cut ∈ cuts, cut.hit ≠ [] ∧ w.Spelled cut.hit ∧
      (spaced cut.hit <+: q ↔ cut.hit <+: p) ∧ (spaced cut.hit <:+ q ↔ cut.hit <:+ p))
    (hgaps : ∀ s ∈ gaps (cuts, last), Tidy s ∧ ∀ line ∈ Text.fields isBreak s, w.Spelled line) :
    Compared w (∀ s ∈ gaps (cuts, last), OpensOnce w s) (w.wrapBetween p [] cuts last)
      (w.wrapBetween q [] (cuts.map (Cut.map unmark)) (spaced last)) := by
  induction cuts with
  | nil =>
    obtain ⟨htidy, hspelled⟩ := hgaps last (List.mem_singleton_self _)
    rw [List.map_nil, wrapBetween_last, wrapBetween_last]
    exact (hw.compared_breakLines htidy hspelled).congr List.forall_mem_singleton
  | cons cut cuts ih =>
    obtain ⟨⟨hne, hhit, hbegins, hends⟩, hhits⟩ := List.forall_mem_cons.mp hhits
    obtain ⟨⟨htidy, hspelled⟩, hgaps⟩ := List.forall_mem_cons.mp hgaps
    have hne' : (cut.map unmark).hit ≠ [] := fun hnil => hne (List.map_eq_nil_iff.mp hnil)
    have hfront : (cut.map unmark).hit.isPrefixOf q = cut.hit.isPrefixOf p := by
      rw [Bool.eq_iff_iff, List.isPrefixOf_iff_prefix, List.isPrefixOf_iff_prefix]
      exact hbegins
    have hback : (cut.map unmark).hit.isSuffixOf q = cut.hit.isSuffixOf p := by
      rw [Bool.eq_iff_iff, List.isSuffixOf_iff_suffix, List.isSuffixOf_iff_suffix]
      exact hends
    rw [List.map_cons, w.wrapBetween_cons hne, w.wrapBetween_cons hne', hfront, hback, List.nil_append,
      List.nil_append]
    have hwritten := Compared.of_spelled hhit
    have hopen := (hwritten.append (.same (a := ['\n']) (by decide) (by decide))).congr and_self_iff.symm
    have hlines := hw.compared_breakLines htidy hspelled
    refine ((((hopen.ite _).append hlines).append (hwritten.ite _)).append (ih hhits hgaps)).congr ?_
    rw [true_and, and_true]
    exact List.forall_mem_cons

theorem compared_wrapParagraph {p : Text} (h : Aligned p) (hspelled : ∀ l ∈ Text.lines p, w.Spelled l)
    (hedges : KeepsEdges p) :
    Compared w (∀ s ∈ gaps (Markers.code.bareLine.sections p), OpensOnce w s) (w.wrapParagraph p)
      (w.wrapParagraph (spaced p)) := by
  rw [wrapParagraph_eq_sections, wrapParagraph_eq_sections, hw.markers, Markers.sections_bareLine_spaced h]
  apply Compared.dropFinalBreak
  apply hw.compared_wrapBetween
  · intro cut hcut
    obtain ⟨hbegins, hends⟩ := hedges cut hcut
    refine ⟨(Pattern.sectioned_sections Markers.longest_bareLine p).ne_nil cut hcut, ?_,
      ⟨hbegins, fun h => h.map unmark⟩, ⟨hends, fun h => h.map unmark⟩⟩
    exact spelled_of_lines fun l hl => hspelled l ((Markers.lines_isInfix_of_bareLine_hit h cut hcut).subset hl)
  · intro s hs
    refine ⟨Markers.tidy_of_mem_gaps h s hs, fun line hline => ?_⟩
    exact hspelled line (Markers.mem_lines_of_mem_fields h hs hline)

/-! ## A whole text -/

theorem compared_wrapAround {last : Text} {cuts : List Cut}
    (hhits : ∀ cut ∈ cuts, w.Spelled cut.hit)
    (hgaps : ∀ p ∈ gaps (cuts, last), Aligned p ∧ (∀ l ∈ Text.lines p, w.Spelled l) ∧ KeepsEdges p) :
    Compared w (∀ p ∈ gaps (cuts, last), ∀ s ∈ gaps (Markers.code.bareLine.sections p), OpensOnce w s)
      (w.wrapAround cuts last) (w.wrapAround (cuts.map (Cut.map unmark)) (spaced last)) := by
  induction cuts with
  | nil =>
    obtain ⟨haligned, hspelled, hedges⟩ := hgaps last (List.mem_singleton_self _)
    rw [List.map_nil, wrapAround_nil, wrapAround_nil]
    exact (hw.compared_wrapParagraph haligned hspelled hedges).congr List.forall_mem_singleton
  | cons cut cuts ih =>
    obtain ⟨hhit, hhits⟩ := List.forall_mem_cons.mp hhits
    obtain ⟨⟨haligned, hspelled, hedges⟩, hgaps⟩ := List.forall_mem_cons.mp hgaps
    have hparagraph := hw.compared_wrapParagraph haligned hspelled hedges
    rw [List.map_cons, wrapAround, wrapAround]
    refine ((hparagraph.append (.of_spelled hhit)).append (ih hhits hgaps)).congr ?_
    rw [and_true]
    exact List.forall_mem_cons

theorem compared_wrapExpanded (h : Aligned t) (hspelled : ∀ l ∈ Text.lines t, w.Spelled l)
    (hedges : ∀ p ∈ gaps (Markers.code.separator.cuts t), KeepsEdges p) :
    Compared w (∀ s ∈ Markers.code.stretches t, OpensOnce w s) (w.wrapExpanded t) (w.wrapExpanded (spaced t)) := by
  rw [wrapExpanded_eq, wrapExpanded_eq, hw.markers, Markers.cuts_separator_spaced h]
  apply Compared.closeLike
  refine (hw.compared_wrapAround ?_ ?_).congr List.forall_mem_flatMap
  · intro cut hcut
    obtain ⟨x, hhit, hwordless⟩ := Markers.exists_of_separator_hit h.lf cut hcut
    apply Spelled.of_not_mem
    · rw [hhit, List.mem_cons, List.mem_append, not_or, not_or]
      exact ⟨by decide, hwordless.not_mem, by decide⟩
    · intro hmem
      apply (spelled_of_lines hspelled).not_mem_tab
      rw [← Pattern.uncut_cuts Markers.code.separator t]
      exact Pattern.mem_uncut_of_mem_hit hcut hmem
  · intro p hp
    have hlines := Markers.lines_isInfix_of_mem_paragraphs h.lf hp
    exact ⟨h.mono hlines, fun l hl => hspelled l (hlines.subset hl), hedges p hp⟩

end IsCode

/-- A text whose tabs stand in front of lines, and of lines without words only at its ends, is wrapped in the same
way with spaces for its tabs if and only if every block comment that opens after a tab takes up one line. -/
theorem spaceTabs_wrap_iff (hw : w.IsCode) (htab : 0 < w.options.tabWidth) (hcr : '\r' ∉ t) (hmark : tabMark ∉ t)
    (hlead : TabsLead t) (hbare : BareAtEnds t)
    (hedges : ∀ p ∈ gaps (Markers.code.separator.cuts (w.expandTabs t)), KeepsEdges p) :
    w.spaceTabs (w.wrap t) = w.wrap (w.spaceTabs t) ↔ ∀ s ∈ Markers.code.stretches (w.expandTabs t), w.OpensOnce s := by
  have haligned := aligned_expandTabs htab hcr hmark hlead hbare
  have hcompared := hw.compared_wrapExpanded haligned (spelled_of_mem_lines hcr hmark) hedges
  have hplain : Plain (spaced (w.expandTabs t)) := by
    intro c hc
    refine ⟨?_, ?_, ?_⟩
    · rintro rfl
      exact haligned.lf ((mem_of_mem_spaced hc).resolve_left (by decide))
    · rintro rfl
      exact not_mem_expandTabs ((mem_of_mem_spaced hc).resolve_left (by decide))
    · rintro rfl
      exact not_mem_spaced _ hc
  rw [wrap_eq, LineEnding.detect_eq_lf hcr, LineEnding.normalize_eq_self hcr, LineEnding.apply_lf,
    hcompared.spelled.spaceTabs_collapseTabs htab, ← spaced_expandTabs hmark, wrap_eq_wrapExpanded hplain]
  exact hcompared.iff_eq

/-- A comment that opens after a tab and takes up two lines opens twice. -/
theorem spaceTabs_wrap_ne :
    let w : Wrapper := ⟨{ width := 9 }, .code⟩
    w.spaceTabs (w.wrap "\t/* aa bb".toList) ≠ w.wrap (w.spaceTabs "\t/* aa bb".toList) := by
  intro w h
  have hexpand : w.expandTabs "\t/* aa bb".toList = "☃☃☃☃/* aa bb".toList := by decide
  have hlines : Text.lines "\t/* aa bb".toList = ["\t/* aa bb".toList] := Text.lines_eq_singleton (by decide)
  have hseparator : Markers.code.separator.cuts "☃☃☃☃/* aa bb".toList = ([], "☃☃☃☃/* aa bb".toList) :=
    Pattern.cutsFrom_eq_of_none (by decide)
  have hbareLine : Markers.code.bareLine.sections "☃☃☃☃/* aa bb".toList = ([], "☃☃☃☃/* aa bb".toList) := by
    have hcuts : Markers.code.bareLine.cuts "☃☃☃☃/* aa bb".toList = ([], "☃☃☃☃/* aa bb".toList) :=
      Pattern.cutsFrom_eq_of_none (by decide)
    rw [Pattern.sections, hcuts]
    rfl
  have hpieces : w.pieces "☃☃☃☃/* aa bb".toList = ["aa".toList, "bb".toList] := by
    have hbody : w.body "☃☃☃☃/* aa bb".toList = "aa bb".toList := by decide
    have hroom : max (w.room "☃☃☃☃/* aa bb".toList) 1 = 2 := by decide
    have hcut : Break.cutLine? 2 "aa bb".toList = some ("aa".toList, "bb".toList) := by decide
    rw [pieces, if_neg (by decide), hbody, Break.greedy, hroom, Break.fill_cut (by decide) (by decide) hcut,
      Break.fill_of_le (by decide)]
    rfl
  obtain ⟨hw, htab⟩ : w.IsCode ∧ 0 < w.options.tabWidth := isCode_of_ofOptions? (o := { width := 9 }) rfl rfl rfl
  have honce := (spaceTabs_wrap_iff hw htab (by decide) (by decide) (by decide) ?_ ?_).mp h
    "☃☃☃☃/* aa bb".toList ?_ (by decide) (by decide)
  · rw [hpieces] at honce
    exact absurd honce (by decide)
  · intro pre k l post hsplit
    have hlen := congrArg List.length hsplit
    rw [hlines, List.length_singleton, List.length_append, List.length_cons, List.length_cons] at hlen
    omega
  · rw [hexpand, hseparator]
    intro p hp
    rw [show p = _ from List.mem_singleton.mp hp, KeepsEdges, hbareLine]
    exact fun cut hcut => absurd hcut List.not_mem_nil
  · rw [hexpand, Markers.stretches, hseparator]
    show _ ∈ ["☃☃☃☃/* aa bb".toList].flatMap _
    rw [List.flatMap_singleton, hbareLine]
    exact List.mem_singleton_self _

end Wrapper

end Reflow
