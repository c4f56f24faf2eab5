import Reflow.Proofs.Comment.Spaced

/-!
# Texts that are cut alike with spaces for their tabs

Where marks of tabs stand in front of lines (`Aligned`), and of lines without words only where no separator
can be, the text is cut at the same places with spaces for the marks (`Markers.cuts_separator_spaced` and
`Markers.sections_bareLine_spaced`).
-/

namespace Reflow

open Pattern (Cut FitsAlike gaps uncut)

variable {t p l x m y : Text}

/-- Marks of tabs stand in front of lines, and of lines without words only at the ends of the text. -/
structure Aligned (t : Text) : Prop where
  /-- There are no line breaks but line feeds. -/
  lf : '\r' ∉ t
  /-- In a line marks stand in front only. -/
  leading : ∀ l ∈ Text.lines t, Leading l
  /-- A line without words that has marks is the first one, or the last one after a line with words. -/
  bare : ∀ pre k l post, Text.lines t = pre ++ k :: l :: post → Indent l → tabMark ∈ l → post = [] ∧ ¬Indent k

theorem indent_spaced_of_mem_lines (h : Indent (spaced t)) (hl : l ∈ Text.lines t) : Indent (spaced l) := by
  apply Markers.indent_of_mem_lines h
  rw [lines_spaced]
  exact List.mem_map_of_mem hl

namespace Aligned

theorem mono (h : Aligned t) (hlines : Text.lines p <:+: Text.lines t) : Aligned p := by
  have hsub : ∀ l ∈ Text.lines p, l ∈ Text.lines t := fun l hl => hlines.subset hl
  refine ⟨fun hcr => ?_, fun l hl => h.leading l (hsub l hl), ?_⟩
  · obtain ⟨l, hl, hmem⟩ := Text.exists_mem_lines hcr (by decide)
    exact h.lf (Text.mem_of_mem_split (hsub l hl) _ hmem)
  · intro pre k l post hsplit hindent hmark
    obtain ⟨a, b, heq⟩ := hlines
    rw [hsplit] at heq
    obtain ⟨hpost, hk⟩ := h.bare (a ++ pre) k l (post ++ b) (by rw [← heq]; simp) hindent hmark
    exact ⟨(List.append_eq_nil_iff.mp hpost).1, hk⟩

theorem not_mem_between (h : Aligned (x ++ '\n' :: (m ++ '\n' :: y))) (hindent : Indent (spaced m)) : tabMark ∉ m := by
  intro hmark
  obtain ⟨l, hl, hmem⟩ := Text.exists_mem_lines hmark (by decide)
  obtain ⟨a, b, hsplit⟩ := List.append_of_mem hl
  have hlines : Text.lines (x ++ '\n' :: (m ++ '\n' :: y)) = Text.lines x ++ (Text.lines m ++ Text.lines y) := by
    rw [Text.lines_append, Text.lines_append]
  have hleading : Leading l := by
    apply h.leading
    rw [hlines]
    simp [hl]
  obtain ⟨pre, k, hpre⟩ := (List.eq_nil_or_concat' (Text.lines x ++ a)).resolve_left (by simp [Text.lines_ne_nil])
  have hwhole : Text.lines (x ++ '\n' :: (m ++ '\n' :: y)) = pre ++ k :: l :: (b ++ Text.lines y) := by
    rw [hlines, hsplit, List.append_assoc, ← List.append_assoc, hpre]
    simp
  obtain ⟨hpost, -⟩ := h.bare pre k l _ hwhole
    ((indent_spaced_iff hleading).mp (indent_spaced_of_mem_lines hindent hl)) hmem
  exact Text.lines_ne_nil (List.append_eq_nil_iff.mp hpost).2

theorem leading_of_indent (h : Aligned t) (hlines : Text.lines m <:+: Text.lines t) (hindent : Indent (spaced m)) :
    Leading m := by
  have hm := h.mono hlines
  have hbare : ∀ l ∈ Text.lines m, Indent l := fun l hl =>
    (indent_spaced_iff (hm.leading l hl)).mp (indent_spaced_of_mem_lines hindent hl)
  by_cases hfeed : '\n' ∈ m
  · obtain ⟨first, rest, rfl, hfirst⟩ := List.eq_append_cons_of_mem hfeed
    have hsplit : Text.lines (first ++ '\n' :: rest) = first :: Text.lines rest := by
      rw [Text.lines_append, Text.lines_eq_singleton hfirst]
      rfl
    obtain ⟨a, r, rfl, ha, hr⟩ := hm.leading first (by rw [hsplit]; exact List.mem_cons_self)
    refine ⟨a, r ++ '\n' :: rest, by simp, ha, ?_⟩
    rw [List.mem_append, List.mem_cons, not_or, not_or]
    refine ⟨hr, by decide, fun hmark => ?_⟩
    -- a line with marks comes after a line with words
    obtain ⟨l, hl, hmem⟩ := Text.exists_mem_lines hmark (by decide)
    obtain ⟨b, c, hrest⟩ := List.append_of_mem hl
    obtain ⟨pre, k, hpre⟩ := (List.eq_nil_or_concat' ((a ++ r) :: b)).resolve_left (List.cons_ne_nil _ _)
    have hwhole : Text.lines (a ++ r ++ '\n' :: rest) = pre ++ k :: l :: c := by
      rw [hsplit, hrest, ← List.cons_append, hpre]
      simp
    have hk : k ∈ Text.lines (a ++ r ++ '\n' :: rest) := by
      rw [hwhole]
      simp
    have hl' : l ∈ Text.lines (a ++ r ++ '\n' :: rest) := by
      rw [hwhole]
      simp
    exact (hm.bare pre k l c hwhole (hbare l hl') hmem).2 (hbare k hk)
  · apply hm.leading
    rw [Text.lines_eq_singleton hfeed]
    exact List.mem_singleton_self m

end Aligned

namespace Pattern

theorem isLineStart_unmark (before after : Option Char) :
    isLineStart true (before.map unmark) (after.map unmark) = isLineStart true before after := by
  have hlf : after.map unmark = some '\n' ↔ after = some '\n' := by
    cases after with
    | none => simp
    | some d => simp [unmark_eq_lf_iff]
  cases before with
  | none => rfl
  | some c =>
    by_cases hmark : c = tabMark
    · rw [hmark]
      rfl
    · rw [Option.map_some, unmark_of_ne hmark]
      unfold isLineStart
      simp only [ne_eq, hlf]

theorem isLineEnd_unmark (before after : Option Char) :
    isLineEnd true (before.map unmark) (after.map unmark) = isLineEnd true before after := by
  have hcr : before.map unmark = some '\r' ↔ before = some '\r' := by
    cases before with
    | none => simp
    | some d => simp [unmark_eq_cr_iff]
  cases after with
  | none => rfl
  | some c =>
    by_cases hmark : c = tabMark
    · rw [hmark]
      rfl
    · rw [Option.map_some, unmark_of_ne hmark]
      unfold isLineEnd
      simp only [ne_eq, hcr]

end Pattern

namespace Markers

open Pattern

/-! ## Separators -/

theorem exists_of_separator_hit (hcr : '\r' ∉ t) :
    ∀ cut ∈ (code.separator.cuts t).1, ∃ w, cut.hit = '\n' :: (w ++ ['\n']) ∧ Wordless w := by
  intro cut hcut
  obtain ⟨x, y, -, hfits⟩ := (tracked_cuts longest_separator t).exists_fits [] cut hcut
  apply (fits_separator_lf_iff _).mp hfits
  intro hmem
  apply hcr
  rw [← uncut_cuts code.separator t]
  exact mem_uncut_of_mem_hit hcut hmem

theorem fitsAlike_separator (h : Aligned t) : FitsAlike code.separator unmark t := by
  intro x m y ht hm
  have hcr : '\r' ∉ m := by
    intro hmem
    apply h.lf
    rw [ht]
    simp [hmem]
  have hcr' : '\r' ∉ m.map unmark := by
    intro hmem
    obtain ⟨c, hc, hc'⟩ := List.mem_map.mp hmem
    rw [unmark_eq_cr_iff] at hc'
    exact hcr (hc' ▸ hc)
  rw [fits_separator_lf_iff hcr, fits_separator_lf_iff hcr']
  constructor
  · rintro ⟨w, rfl, hw⟩
    have hmark : tabMark ∉ '\n' :: (w ++ ['\n']) := by
      rw [List.mem_cons, List.mem_append, not_or, not_or]
      exact ⟨by decide, hw.not_mem, by decide⟩
    exact ⟨w, spaced_eq_self hmark, hw⟩
  · rintro ⟨w', hw', hwordless⟩
    obtain ⟨c, v, rfl, hc, hv⟩ := List.map_eq_cons_iff.mp hw'
    obtain ⟨w, v, rfl, rfl, hfeed⟩ := List.map_eq_append_iff.mp hv
    obtain ⟨d, v, rfl, hd, hnil⟩ := List.map_eq_cons_iff.mp hfeed
    obtain rfl := List.map_eq_nil_iff.mp hnil
    obtain rfl := unmark_eq_lf_iff.mp hc
    obtain rfl := unmark_eq_lf_iff.mp hd
    have happend : t = x ++ '\n' :: (w ++ '\n' :: y) := by
      rw [ht]
      simp
    rw [happend] at h
    have hw := h.not_mem_between hwordless.indent
    rw [show w.map unmark = w from spaced_eq_self hw] at hwordless
    exact ⟨w, rfl, hwordless⟩

theorem cuts_separator_spaced (h : Aligned t) :
    code.separator.cuts (spaced t) =
      ((code.separator.cuts t).1.map (Cut.map unmark), spaced (code.separator.cuts t).2) := by
  have hcuts := sections_eq_cuts longest_separator fun _ _ => not_fits_separator_nil
  rw [← hcuts, ← hcuts t]
  exact sections_map longest_separator (fitsAlike_separator h)

theorem lines_isInfix_of_mem_gaps {cuts : List Cut} {last : Text}
    (h : ∀ cut ∈ cuts, ∃ w, cut.hit = '\n' :: (w ++ ['\n']) ∧ Wordless w) :
    ∀ p ∈ gaps (cuts, last), Text.lines p <:+: Text.lines (uncut cuts last) := by
  induction cuts with
  | nil =>
    intro p hp
    rw [show p = last from List.mem_singleton.mp hp]
    exact List.infix_rfl
  | cons cut cuts ih =>
    intro p hp
    rw [List.forall_mem_cons] at h
    obtain ⟨⟨w, hhit, -⟩, hlater⟩ := h
    have happend : uncut (cut :: cuts) last = cut.gap ++ '\n' :: (w ++ '\n' :: uncut cuts last) := by
      rw [uncut, hhit]
      simp
    rw [happend, Text.lines_append, Text.lines_append]
    rcases List.mem_cons.mp hp with rfl | hp
    · exact (List.prefix_append _ _).isInfix
    · have hsuffix := (List.suffix_append (Text.lines w) (Text.lines (uncut cuts last))).trans
        (List.suffix_append (Text.lines cut.gap) _)
      exact (ih hlater p hp).trans hsuffix.isInfix

theorem lines_isInfix_of_mem_paragraphs (hcr : '\r' ∉ t) (hp : p ∈ gaps (code.separator.cuts t)) :
    Text.lines p <:+: Text.lines t := by
  have hlines : Text.lines p <:+: Text.lines (uncut (code.separator.cuts t).1 (code.separator.cuts t).2) :=
    lines_isInfix_of_mem_gaps (exists_of_separator_hit hcr) p hp
  rwa [uncut_cuts] at hlines

/-! ## Bare lines -/

theorem lines_isInfix_of_edges (hcr : '\r' ∉ p) (hp : p = x ++ (m ++ y))
    (hstart : isLineStart true x.getLast? (m.head?.or y.head?) = true)
    (hend : isLineEnd true (m.getLast?.or x.getLast?) y.head? = true) : Text.lines m <:+: Text.lines p := by
  obtain ⟨pre, post, hsplit, -⟩ := exists_split_of_edges (m := m) none (by rwa [Option.or_none]) hend
  have hcr' : '\r' ∉ m := by
    intro hmem
    apply hcr
    rw [hp]
    simp [hmem]
  rw [← Text.split_isBreak_eq_lines hcr, hp, hsplit, Text.split_isBreak_eq_lines hcr']
  exact ⟨pre, post, List.append_assoc ..⟩

theorem fitsAlike_bareLine (h : Aligned p) : FitsAlike code.bareLine unmark p := by
  intro x m y hp hm
  rw [fits_bareLine_iff, fits_bareLine_iff, List.getLast?_map, List.head?_map, List.head?_map, List.getLast?_map,
    ← Option.map_or, ← Option.map_or, isLineStart_unmark, isLineEnd_unmark]
  constructor
  · rintro ⟨hstart, hindent, hend⟩
    exact ⟨hstart, hindent.spaced, hend⟩
  · rintro ⟨hstart, hindent, hend⟩
    have hleading := h.leading_of_indent (lines_isInfix_of_edges h.lf hp hstart hend) hindent
    exact ⟨hstart, (indent_spaced_iff hleading).mp hindent, hend⟩

theorem sections_bareLine_spaced (h : Aligned p) :
    code.bareLine.sections (spaced p) =
      ((code.bareLine.sections p).1.map (Cut.map unmark), spaced (code.bareLine.sections p).2) :=
  sections_map longest_bareLine (fitsAlike_bareLine h)

theorem lines_isInfix_of_bareLine_hit (h : Aligned p) :
    ∀ cut ∈ (code.bareLine.sections p).1, Text.lines cut.hit <:+: Text.lines p := by
  intro cut hcut
  have htracked := (sectioned_sections longest_bareLine p).tracked
  obtain ⟨x, y, heq, hfits⟩ := htracked.exists_fits [] cut hcut
  rw [List.nil_append, uncut_sections] at heq
  obtain ⟨hstart, -, hend⟩ := fits_bareLine_iff.mp hfits
  exact lines_isInfix_of_edges h.lf heq hstart hend

theorem not_indent_of_passed {line : Text} (h : Passed code.bareLine line) : ¬Indent line := by
  obtain ⟨before, after, hstart, hend, hfits⟩ := h
  exact fun hindent => hfits (fits_bareLine_iff.mpr ⟨hstart, hindent, hend⟩)

end Markers

/-- Every line has words, and marks of tabs in front only. -/
def Tidy (s : Text) : Prop :=
  ∀ line ∈ Text.fields isBreak s, Leading line ∧ ¬Indent line

namespace Markers

theorem mem_lines_of_mem_fields (h : Aligned p) {s line : Text} (hs : s ∈ gaps (code.bareLine.sections p))
    (hline : line ∈ Text.fields isBreak s) : line ∈ Text.lines p := by
  have hsections := Pattern.sectioned_sections longest_bareLine p
  have hmem := Pattern.mem_fields_of_mem_gaps (Pattern.ofLines_bareLine _) hsections s hs hline
  rw [Pattern.uncut_sections] at hmem
  rw [← Text.split_isBreak_eq_lines h.lf]
  exact List.mem_of_mem_filter hmem

theorem tidy_of_mem_gaps (h : Aligned p) : ∀ s ∈ gaps (code.bareLine.sections p), Tidy s := by
  intro s hs line hline
  have hpassed := Pattern.passed_of_mem_gaps_sections (Pattern.ofLines_bareLine _) longest_bareLine hs hline
  exact ⟨h.leading line (mem_lines_of_mem_fields h hs hline), not_indent_of_passed hpassed⟩

theorem exists_indent_of_tidy {s : Text} (h : Tidy s) :
    (∀ c ∈ s, isBreak c = true) ∨ ∃ line ∈ Text.fields isBreak s,
      (code.splitLine s).indent = (code.splitLine line).indent ∧
      (code.splitLine (spaced s)).indent = spaced (code.splitLine line).indent := by
  rcases Text.fields_cases isBreak s with hall | ⟨b, line, rest, rfl, hb, hline, hrest⟩
  · exact .inl hall
  · obtain ⟨hleading, hindent⟩ := h line hline
    have hb' : ∀ c ∈ spaced b, isBreak c = true := by
      intro c hc
      obtain ⟨d, hd, rfl⟩ := List.mem_map.mp hc
      rw [isBreak_unmark]
      exact hb d hd
    have hrest' : ∀ c ∈ (spaced rest).head?, isBreak c = true := by
      intro c hc
      rw [spaced, List.head?_map, Option.mem_def, Option.map_eq_some_iff] at hc
      obtain ⟨d, hd, rfl⟩ := hc
      rw [isBreak_unmark]
      exact hrest d hd
    refine .inr ⟨line, hline, indent_splitLine_eq hb hindent hrest, ?_⟩
    rw [spaced_append, spaced_append, indent_splitLine_eq hb' (mt (indent_spaced_iff hleading).mp hindent) hrest']
    exact (splitLine_spaced hleading).1

end Markers

end Reflow
