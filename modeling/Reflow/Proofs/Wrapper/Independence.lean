import Reflow.Proofs.Comment.Separator
import Reflow.Proofs.Wrapper.Paragraph

/-!
# Paragraphs do not depend on each other

A wordless line between a line with words and a line with words is kept, and what comes before and
after it is wrapped as if it were alone: `Wrapper.wrap_paragraphs`.
-/

namespace Reflow

variable {p s q t : Text}

theorem endsInWords_of_not_isBare
    (h : ∀ line ∈ (Text.lines t).getLast?, Markers.code.isBare line = false) : EndsInWords t := by
  rintro x y rfl hy
  refine not_indent_of_not_isBare (h y ?_)
  rw [Text.lines_append, Text.lines_eq_singleton hy]
  simp

theorem startsInWords_of_not_isBare
    (h : ∀ line ∈ (Text.lines t).head?, Markers.code.isBare line = false) : StartsInWords t := by
  rintro x y rfl hx
  obtain ⟨line, ls, hcons⟩ := List.exists_cons_of_ne_nil (Text.lines_ne_nil (t := x))
  refine not_indent_of_not_isBare (h line ?_) (Markers.indent_of_mem_lines hx.indent ?_)
  · rw [Text.lines_append, hcons]
    rfl
  · rw [hcons]
    exact List.mem_cons_self

theorem getLast?_ne_of_not_isBare
    (h : ∀ line ∈ (Text.lines t).getLast?, Markers.code.isBare line = false) : t.getLast? ≠ some '\n' := by
  intro hlast
  have heq := List.dropLast_append_getLast? _ hlast
  have := h [] (by rw [← heq, Text.lines_append]; simp)
  rw [Markers.isBare_of_indent Indent.nil] at this
  cases this

namespace Wrapper

variable {w : Wrapper}

theorem wrapAround_ne_nil (hw : w.IsCode) (hcr : '\r' ∉ q)
    (h : ∀ line ∈ (Text.lines q).head?, Markers.code.isBare line = false) :
    w.wrapAround (Markers.code.separator.cuts q).1 (Markers.code.separator.cuts q).2 ≠ [] := by
  cases hfind : Markers.code.separator.find? false none q with
  | none =>
    obtain ⟨line, ls, hcons⟩ := List.exists_cons_of_ne_nil (Text.lines_ne_nil (t := q))
    have hbare := h line (by rw [hcons]; rfl)
    obtain ⟨c, hc, hblank⟩ := exists_word_of_not_isBare hbare
    have hmem : c ∈ w.wrapParagraph q := by
      refine hw.mem_wrapParagraph ?_ (not_indent_of_not_isBare hbare) (by rwa [hw.markers])
        ?_ ?_
      · rw [Text.split_isBreak_eq_lines hcr, hcons]
        rfl
      · rintro rfl
        exact absurd hblank (by decide)
      · rintro rfl
        exact absurd hblank (by decide)
    rw [Markers.cuts_separator_of_none hfind, wrapAround_nil]
    exact List.ne_nil_of_mem hmem
  | some m =>
    have hhit : m.hit ≠ [] := by
      intro hnil
      have := (Pattern.found_of_find? Markers.longest_separator hfind).longest.fits
      rw [hnil] at this
      exact Markers.not_fits_separator_nil this
    rw [Markers.cuts_separator_of_some hfind, wrapAround]
    simp [hhit]

/-- Wrapping two texts with a wordless line between them wraps each of them and keeps that line. -/
theorem wrap_paragraphs (hw : w.IsCode)
    (hp : ∀ line ∈ (Text.lines p).getLast?, w.markers.isBare line = false)
    (hq : ∀ line ∈ (Text.lines q).head?, w.markers.isBare line = false)
    (hs : Wordless s) (hplain : Plain (p ++ (s ++ q))) :
    w.wrap (p ++ '\n' :: (s ++ '\n' :: q)) = w.wrap p ++ '\n' :: (s ++ '\n' :: w.wrap q) := by
  rw [hw.markers] at hp hq
  have hwhole : Plain (p ++ '\n' :: (s ++ '\n' :: q)) := by
    refine hplain.mono fun c hc => ?_
    rcases eq_or_ne c '\n' with rfl | hne
    · exact .inl rfl
    · exact .inr (by simpa [hne] using hc)
  have hwrap : ∀ t : Text, (∀ c ∈ t, c ∈ p ++ (s ++ q)) → w.wrap t = w.wrapExpanded t :=
    fun t ht => wrap_eq_wrapExpanded (hplain.mono fun c hc => .inr (ht c hc))
  have hcr : '\r' ∉ p ++ '\n' :: (s ++ '\n' :: q) := hwhole.not_mem_return
  have hcrq : '\r' ∉ q := fun h => hcr (by simp [h])
  have hqne : q ≠ [] := by
    rintro rfl
    exact absurd (hq [] rfl) (by rw [Markers.isBare_of_indent Indent.nil]; simp)
  rw [wrap_eq_wrapExpanded hwhole, hwrap p fun c hc => by simp [hc], hwrap q fun c hc => by simp [hc]]
  rw [wrapExpanded_eq, wrapExpanded_eq, wrapExpanded_eq, hw.markers, closeLike_of_ne (getLast?_ne_of_not_isBare hp),
    Markers.cuts_append (endsInWords_of_not_isBare hp) hs (startsInWords_of_not_isBare hq) hcr,
    wrapAround_append]
  have hclose := closeLike_append (u := p ++ '\n' :: (s ++ ['\n']))
    (a := w.wrapAround (Markers.code.separator.cuts p).1 (Markers.code.separator.cuts p).2 ++
      '\n' :: (s ++ ['\n'])) hqne (wrapAround_ne_nil hw hcrq hq)
  simpa using hclose

theorem wrap_paragraphs_slashes :
    Wrapper.code.wrap ("// one".toList ++ '\n' :: ("//".toList ++ '\n' :: "// two".toList)) =
      Wrapper.code.wrap "// one".toList ++ '\n' ::
        ("//".toList ++ '\n' :: Wrapper.code.wrap "// two".toList) := by
  have hw : Wrapper.code.IsCode := (isCode_of_ofOptions? (o := {}) rfl rfl rfl).1
  have hwordless : Wordless "//".toList := ⟨[], _, rfl, rfl, _, [], [], rfl, .inr (.slashes 0), rfl, .inl rfl⟩
  exact wrap_paragraphs hw (by decide) (by decide) hwordless (by decide)

end Wrapper

end Reflow
