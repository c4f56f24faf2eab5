import Reflow.Proofs.Comment.Stretches
import Reflow.Proofs.Wrapper.Spelling

/-!
# Wrapping a paragraph

How the parts of wrapping behave on a paragraph of source code whose lines do not hang under list
symbols (`Wrapper.IsCode`).  The words of every line come out again, and a text with words on every
line is one paragraph: `Wrapper.wrapExpanded_of_worded`.
-/

namespace Reflow.Wrapper

/-- The wrapper reads the comments of source code and does not hang the lines of list items. -/
structure IsCode (w : Wrapper) : Prop where
  markers : w.markers = .code
  /-- The lines of list items have the indent of the paragraph. -/
  flush : w.options.hangLists = false

theorem isCode_of_ofOptions? {o : Options} {w : Wrapper} (h : ofOptions? o = some w)
    (hleader : o.leader = codeLeader) (hflush : o.hangLists = false) :
    w.IsCode ∧ 0 < w.options.tabWidth := by
  rw [ofOptions?, hleader, Markers.read?, if_pos rfl, Option.map_some, Option.some.injEq] at h
  subst h
  exact ⟨⟨rfl, hflush⟩, Nat.lt_of_lt_of_le Nat.one_pos (Nat.le_max_right _ _)⟩

variable {w : Wrapper} {t : Text} {c : Char}

/-! ## The words of a paragraph -/

/-- What the lines after the first one start with in source code. -/
def continued (indent : Text) : Text :=
  if isOpener indent then indent.takeWhile isBlank ++ [' ', '*', ' '] else indent

theorem isOpener_cases {indent : Text} (h : isOpener indent = true) :
    (∃ n, Text.trim indent = '/' :: List.replicate (n + 1) '*') ∨
      Text.trim indent = ['"', '"', '"'] ∨ Text.trim indent = ['\'', '\'', '\''] := by
  unfold isOpener at h
  split at h
  · rename_i stars heq
    rw [Bool.and_eq_true, List.all_eq_true] at h
    obtain ⟨hne, hstars⟩ := h
    have hreplicate : stars = List.replicate stars.length '*' :=
      List.eq_replicate_of_mem fun c hc => of_decide_eq_true (hstars c hc)
    cases stars with
    | nil => cases hne
    | cons star stars => exact .inl ⟨stars.length, heq.trans (congrArg _ hreplicate)⟩
  · rw [Bool.or_eq_true, decide_eq_true_eq, decide_eq_true_eq] at h
    exact .inr h

theorem not_isOpener_of_mem (h : c ∈ t) (hblank : isBlank c = false) (hc : c ∉ ['/', '*', '"', '\'']) :
    isOpener t = false := by
  have hmem : c ∈ Text.trim t := by
    obtain ⟨x, y, rfl⟩ := List.append_of_mem h
    exact Text.mem_strip ⟨c, by simp, hblank⟩ ⟨c, by simp, hblank⟩
  refine Bool.eq_false_iff.mpr fun hopener => hc ?_
  rcases isOpener_cases hopener with ⟨n, heq⟩ | heq | heq
  · rw [heq] at hmem
    rcases List.mem_cons.mp hmem with rfl | hmem
    · exact List.mem_cons_self
    · rw [List.eq_of_mem_replicate hmem]
      decide
  · rw [heq] at hmem
    simp_all
  · rw [heq] at hmem
    simp_all

section

variable (h : w.options.hangLists = false) (t : Text)
include h

/-- The lines of a paragraph that does not hang under a list symbol have its indent, or the star of a block comment. -/
theorem indents_of_flush :
    w.indents t = ⟨[], (w.markers.splitLine t).indent, continued (w.markers.splitLine t).indent⟩ := by
  simp [indents, h, continued]

theorem body_of_flush : w.body t = w.unwrap t := by
  simp [body, indents_of_flush h]

theorem room_of_flush : w.room t = w.options.width - (w.markers.splitLine t).indent.length := by
  simp [room, h]

end

namespace IsCode

variable (hw : w.IsCode) (t : Text)
include hw

theorem body_eq : w.body t = w.unwrap t :=
  body_of_flush hw.flush t

theorem first_eq : (w.indents t).first = (w.markers.splitLine t).indent := by
  rw [indents_of_flush hw.flush]

theorem later_eq : (w.indents t).later = continued (w.markers.splitLine t).indent := by
  rw [indents_of_flush hw.flush]

theorem room_eq : w.room t = w.options.width - (w.markers.splitLine t).indent.length :=
  room_of_flush hw.flush t

end IsCode

theorem mem_unwrap_of_mem_rest {line : Text} (hline : line ∈ Text.split isBreak t)
    (hc : c ∈ (w.markers.splitLine line).rest) : c ∈ w.unwrap t := by
  refine Text.mem_join_of_mem (List.mem_map.mpr ⟨line, ?_, rfl⟩) hc
  refine List.mem_filter.mpr ⟨hline, ?_⟩
  have := List.ne_nil_of_mem (Markers.mem_of_mem_rest hc)
  simpa using this

theorem exists_piece_of_mem_body (hc : c ∈ w.body t) (hspace : c ≠ ' ') :
    ∃ piece ∈ w.pieces t, c ∈ piece := by
  obtain ⟨ls, hls, heq⟩ := w.exists_breaks t
  have hmem : c ∈ ls.flatten.filter fun c => c ≠ ' ' := by
    rw [hls.filter_flatten]
    simpa using ⟨hc, hspace⟩
  obtain ⟨piece, hpiece, hc'⟩ := List.mem_flatten.mp (List.mem_of_mem_filter hmem)
  refine ⟨piece, ?_, hc'⟩
  rw [heq]
  exact Text.mem_dropTrailingEmpty hpiece (List.ne_nil_of_mem hc')

theorem exists_line_of_mem_piece {piece : Text} (hpiece : piece ∈ w.pieces t) (hc : c ∈ piece) :
    ∃ line ∈ w.breakLines t, c ∈ line := by
  unfold breakLines
  split
  · rename_i hnil
    rw [hnil] at hpiece
    exact absurd hpiece List.not_mem_nil
  · rename_i first pieces hcons
    rw [hcons] at hpiece
    rcases List.mem_cons.mp hpiece with rfl | hpiece
    · exact ⟨_, List.mem_cons_self, List.mem_append_right _ hc⟩
    · exact ⟨_, List.mem_cons_of_mem _ (List.mem_map_of_mem hpiece), List.mem_append_right _ hc⟩

theorem IsCode.mem_terminated_breakLines (hw : w.IsCode) {line : Text}
    (hline : line ∈ Text.split isBreak t) (hc : c ∈ (w.markers.splitLine line).rest) (hspace : c ≠ ' ') :
    c ∈ terminated (w.breakLines t) := by
  have hbody : c ∈ w.body t := by
    rw [hw.body_eq]
    exact mem_unwrap_of_mem_rest hline hc
  obtain ⟨piece, hpiece, hc'⟩ := exists_piece_of_mem_body hbody hspace
  obtain ⟨line', hline', hc''⟩ := exists_line_of_mem_piece hpiece hc'
  exact List.mem_flatMap.mpr ⟨line', hline', List.mem_append_left _ hc''⟩

/-! ## Line breaks alone -/

theorem unwrap_of_breaks (h : ∀ c ∈ t, isBreak c = true) : w.unwrap t = [] := by
  rw [unwrap, Text.fields_eq_nil h]
  rfl

theorem body_of_breaks (h : ∀ c ∈ t, isBreak c = true) : w.body t = [] := by
  have hdrop : ∀ symbol, dropSymbol symbol [] = [] := by
    intro symbol
    unfold dropSymbol Text.after?
    split
    · rename_i rest hrest
      split at hrest
      · rw [← Option.some.inj hrest]
        simp [Text.trimStart]
      · cases hrest
    · rfl
  simp only [body, unwrap_of_breaks h, hdrop, ite_self]

theorem pieces_of_body_nil (h : w.body t = []) : w.pieces t = [] := by
  obtain ⟨ls, hls, heq⟩ := w.exists_breaks t
  rw [h] at hls
  rw [heq]
  generalize hu : ([] : Text) = u at hls
  cases hls with
  | last line => rw [← hu]; rfl
  | skip h => cases hu
  | cons line h => exact absurd hu (by simp)

theorem breakLines_of_breaks (h : ∀ c ∈ t, isBreak c = true) : w.breakLines t = [] := by
  rw [breakLines, pieces_of_body_nil (body_of_breaks h)]

/-! ## Bare lines -/

theorem IsCode.mem_wrapBetween (hw : w.IsCode) {whole pending last line : Text}
    {cuts : List Pattern.Cut} (hfit : Pattern.AllFit Markers.code.bareLine pending.getLast? cuts last)
    (hline : (Text.split isBreak (pending ++ Pattern.uncut cuts last)).head? = some line)
    (hindent : ¬Indent line) (hc : c ∈ (w.markers.splitLine line).rest) (hspace : c ≠ ' ') :
    c ∈ w.wrapBetween whole pending cuts last := by
  induction cuts generalizing pending with
  | nil =>
    have hmem : line ∈ Text.split isBreak (pending ++ last) := List.mem_of_mem_head? hline
    have hne : pending ++ last ≠ [] :=
      List.ne_nil_of_mem (Text.mem_of_mem_split hmem c (Markers.mem_of_mem_rest hc))
    rw [wrapBetween, if_neg (by simpa using hne)]
    exact hw.mem_terminated_breakLines hmem hc hspace
  | cons cut cuts ih =>
    obtain ⟨hhere, hlater⟩ := hfit
    rw [← List.getLast?_append] at hhere hlater
    rw [Pattern.uncut, ← List.append_assoc] at hline
    rw [wrapBetween]
    split
    · rename_i hempty
      rw [List.isEmpty_iff.mp hempty, List.append_nil] at hlater
      rw [List.isEmpty_iff.mp hempty, List.nil_append] at hline
      exact ih hlater hline
    · obtain ⟨pre, post, hsplit, hpre, -⟩ := Markers.exists_split_of_fits_bareLine hhere
      have hne : pending ++ cut.gap ≠ [] := by
        intro hnil
        rw [hsplit, hpre.mpr hnil, List.nil_append,
          List.head?_append_of_ne_nil _ (Text.split_ne_nil _ _)] at hline
        refine hindent (Markers.indent_of_mem_split (Markers.indent_of_fits_bareLine hhere) ?_)
        exact List.mem_of_mem_head? hline
      have hmem : line ∈ Text.split isBreak (pending ++ cut.gap) := by
        obtain ⟨x, d, hx⟩ := (List.eq_nil_or_concat' _).resolve_left hne
        have hd : isBreak d = true := by
          rw [Markers.fits_bareLine_iff] at hhere
          refine Pattern.isBreak_of_isLineStart hhere.1 ?_
          rw [hx]
          simp
        rw [hx, List.append_assoc, List.singleton_append, Text.head?_split_append hd] at hline
        rw [hx, Text.split_append hd]
        exact List.mem_append_left _ (List.mem_of_mem_head? hline)
      have := hw.mem_terminated_breakLines hmem hc hspace
      simp [this]

theorem IsCode.mem_wrapParagraph (hw : w.IsCode) {line : Text}
    (hline : (Text.split isBreak t).head? = some line) (hindent : ¬Indent line)
    (hc : c ∈ (w.markers.splitLine line).rest) (hspace : c ≠ ' ') (hlf : c ≠ '\n') :
    c ∈ w.wrapParagraph t := by
  rw [wrapParagraph_eq, hw.markers]
  have hmem : c ∈ w.wrapBetween t [] (Markers.code.bareLine.cuts t).1 (Markers.code.bareLine.cuts t).2 :=
    hw.mem_wrapBetween (Pattern.allFit_cuts Markers.longest_bareLine t)
      (by rwa [List.nil_append, Pattern.uncut_cuts]) hindent hc hspace
  rcases dropFinalBreak_cases (w.wrapBetween t [] (Markers.code.bareLine.cuts t).1 (Markers.code.bareLine.cuts t).2)
    with heq | heq
  · rwa [heq] at hmem
  · rw [heq, List.mem_append, List.mem_singleton] at hmem
    exact hmem.resolve_right hlf

theorem wrapBetween_last (w : Wrapper) (whole last : Text) :
    w.wrapBetween whole [] [] last = terminated (w.breakLines last) := by
  cases last with
  | nil =>
    rw [breakLines_of_breaks fun c hc => absurd hc List.not_mem_nil]
    rfl
  | cons c last => rfl

theorem wrapBetween_cons_nil {whole pending last : Text} {cut : Pattern.Cut} {cuts : List Pattern.Cut}
    (h : cut.hit = []) :
    w.wrapBetween whole pending (cut :: cuts) last = w.wrapBetween whole (pending ++ cut.gap) cuts last := by
  rw [wrapBetween, if_pos (List.isEmpty_iff.mpr h)]

theorem wrapBetween_cons (w : Wrapper) {whole pending last : Text} {cut : Pattern.Cut} {cuts : List Pattern.Cut}
    (h : cut.hit ≠ []) :
    w.wrapBetween whole pending (cut :: cuts) last =
      (if cut.hit.isPrefixOf whole then cut.hit ++ ['\n'] else []) ++
        terminated (w.breakLines (pending ++ cut.gap)) ++
        (if cut.hit.isSuffixOf whole then cut.hit else []) ++ w.wrapBetween whole [] cuts last := by
  rw [wrapBetween, if_neg (by simpa using h)]

/-- Only the matches that hold something part the text. -/
theorem wrapBetween_merge (whole pending : Text) (cuts : List Pattern.Cut) (last : Text) :
    w.wrapBetween whole pending cuts last =
      w.wrapBetween whole [] (Pattern.merge pending cuts last).1 (Pattern.merge pending cuts last).2 := by
  induction cuts generalizing pending with
  | nil => rfl
  | cons cut cuts ih =>
    by_cases hhit : cut.hit = []
    · rw [Pattern.merge_cons_nil hhit, wrapBetween_cons_nil hhit, ih]
    · have hhit' : (⟨pending ++ cut.gap, cut.hit⟩ : Pattern.Cut).hit ≠ [] := hhit
      rw [Pattern.merge_cons hhit, w.wrapBetween_cons hhit, w.wrapBetween_cons hhit', ih, List.nil_append]

theorem wrapParagraph_eq_sections (w : Wrapper) (t : Text) :
    w.wrapParagraph t = dropFinalBreak
      (w.wrapBetween t [] (w.markers.bareLine.sections t).1 (w.markers.bareLine.sections t).2) := by
  rw [wrapParagraph_eq, wrapBetween_merge, Pattern.sections]

/-! ## Texts with words on every line -/

theorem terminated_eq {ls : List Text} (h : ls ≠ []) : terminated ls = Text.ofLines ls ++ ['\n'] := by
  induction ls with
  | nil => exact absurd rfl h
  | cons line ls ih =>
    by_cases hls : ls = []
    · subst hls
      simp [terminated, Text.ofLines]
    · rw [Text.ofLines, Text.join_cons hls, List.append_assoc, List.cons_append]
      rw [Text.ofLines] at ih
      rw [← ih hls]
      simp [terminated]

theorem dropFinalBreak_append (t : Text) : dropFinalBreak (t ++ ['\n']) = t := by
  simp [dropFinalBreak]

theorem length_le_length_dropFinalBreak (t : Text) : t.length ≤ (dropFinalBreak t).length + 1 := by
  have hlen : t.length = (dropFinalBreak t).length ∨ t.length = (dropFinalBreak t ++ ['\n']).length :=
    (dropFinalBreak_cases t).imp (congrArg List.length) (congrArg List.length)
  rw [List.length_append, List.length_singleton] at hlen
  omega

theorem dropFinalBreak_terminated (ls : List Text) : dropFinalBreak (terminated ls) = Text.ofLines ls := by
  by_cases hls : ls = []
  · subst hls
    rfl
  · rw [terminated_eq hls, dropFinalBreak_append]

theorem wrapParagraph_of_barren (hp : w.markers.bareLine.Longest) (h : Pattern.Barren w.markers.bareLine none t []) :
    w.wrapParagraph t = Text.ofLines (w.breakLines t) := by
  rw [wrapParagraph_eq_sections, Pattern.sections_of_barren hp h, wrapBetween_last, dropFinalBreak_terminated]

theorem wrapParagraph_of_worded (hw : w.markers = .code) (ht : Worded t) :
    w.wrapParagraph t = Text.ofLines (w.breakLines t) := by
  apply wrapParagraph_of_barren
  · rw [hw]
    exact Markers.longest_bareLine
  · rw [hw]
    exact leads_codeLeaders.barren_bareLine ht none

/-- The wrapped text with a line feed at its end if the text has one. -/
def closeLike (t wrapped : Text) : Text :=
  if t.getLast? = some '\n' && wrapped.getLast? ≠ some '\n' then wrapped ++ ['\n'] else wrapped

theorem wrapExpanded_eq (w : Wrapper) (t : Text) :
    w.wrapExpanded t = closeLike t
      (w.wrapAround (w.markers.separator.cuts t).1 (w.markers.separator.cuts t).2) := rfl

theorem closeLike_of_ne {wrapped : Text} (h : t.getLast? ≠ some '\n') : closeLike t wrapped = wrapped := by
  simp [closeLike, h]

theorem closeLike_self (t : Text) : closeLike t t = t := by
  simp [closeLike]

theorem closeLike_cases (t wrapped : Text) :
    closeLike t wrapped = wrapped ∨ closeLike t wrapped = wrapped ++ ['\n'] := by
  unfold closeLike
  split
  · exact .inr rfl
  · exact .inl rfl

theorem length_le_length_closeLike (t wrapped : Text) : wrapped.length ≤ (closeLike t wrapped).length := by
  rcases closeLike_cases t wrapped with heq | heq
  · rw [heq]
  · rw [heq, List.length_append]
    exact Nat.le_add_right _ _

theorem length_closeLike_le (t wrapped : Text) : (closeLike t wrapped).length ≤ wrapped.length + 1 := by
  rcases closeLike_cases t wrapped with heq | heq
  · rw [heq]
    exact Nat.le_succ _
  · rw [heq, List.length_append, List.length_singleton]

theorem closeLike_append {u a b : Text} (ht : t ≠ []) (hb : b ≠ []) :
    closeLike (u ++ t) (a ++ b) = a ++ closeLike t b := by
  rw [closeLike, closeLike, List.getLast?_append_of_ne_nil _ ht, List.getLast?_append_of_ne_nil _ hb]
  split
  · rw [List.append_assoc]
  · rfl

theorem wrapExpanded_of_worded (hw : w.markers = .code) (ht : Worded t) (hne : t ≠ []) :
    w.wrapExpanded t = closeLike t (Text.ofLines (w.breakLines t)) := by
  rw [wrapExpanded_eq, hw, Markers.cuts_separator_of_worded ht, wrapAround,
    if_neg (by simpa using hne), wrapParagraph_of_worded hw ht]

/-! ## One paragraph after the other -/

theorem wrapAround_nil (last : Text) : w.wrapAround [] last = w.wrapParagraph last := by
  rw [wrapAround]
  split
  · rename_i h
    rw [List.isEmpty_iff.mp h, wrapParagraph_nil]
  · rfl

/-- A separator that is kept parts what comes before it from what comes after it. -/
theorem wrapAround_append {before after : List Pattern.Cut} {gap hit last : Text} :
    w.wrapAround (before ++ ⟨gap, hit⟩ :: after) last =
      w.wrapAround before gap ++ (hit ++ w.wrapAround after last) := by
  induction before with
  | nil => rw [List.nil_append, wrapAround_nil, wrapAround, List.append_assoc]
  | cons cut before ih =>
    rw [List.cons_append, wrapAround, ih, wrapAround]
    simp

end Reflow.Wrapper
