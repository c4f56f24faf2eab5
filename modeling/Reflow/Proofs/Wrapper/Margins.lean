import Reflow.Proofs.Break.Filled
import Reflow.Proofs.Wrapper.Paragraph

/-!
# Margins

What the lines of a paragraph are made of if they do not hang under a list symbol: pieces under the indent of the
paragraph and under what comes before its other lines (`Wrapper.under`).  The words of the pieces are the words of the
lines that were joined, in order (`Wrapper.breakLines_words`).  Lines that are filled keep to the width if they hold
more than one word; only under a bare opener, which is shorter than the star of the lines after it, they may be one
column too wide (`Wrapper.breakLines_columns`).
-/

namespace Reflow

namespace Wrapper

open Reflow.Break (spaceWords)

variable {w : Wrapper} {t indent piece : Text}

/-- Lines made of pieces, with `first` before the first one and `later` before the others. -/
def under (first later : Text) : List Text → List Text
  | [] => []
  | piece :: pieces => (first ++ piece) :: pieces.map fun piece => later ++ piece

theorem breakLines_eq_under (w : Wrapper) (t : Text) :
    w.breakLines t = under (w.indents t).first (w.indents t).later (w.pieces t) := by
  cases h : w.pieces t with
  | nil => rw [breakLines, h, under]
  | cons piece pieces => rw [breakLines, h, under]

theorem breakLines_of_flush (h : w.options.hangLists = false) (t : Text) :
    w.breakLines t =
      under (w.markers.splitLine t).indent (continued (w.markers.splitLine t).indent) (w.pieces t) := by
  rw [breakLines_eq_under, indents_of_flush h]

/-! ## Words -/

theorem spaceWords_unwrap (w : Wrapper) (t : Text) :
    spaceWords (w.unwrap t) =
      (Text.fields isBreak t).flatMap fun line => spaceWords (w.markers.splitLine line).rest := by
  rw [unwrap, Break.spaceWords_join, List.flatMap_map]

theorem spaceWords_pieces (w : Wrapper) (t : Text) : (w.pieces t).flatMap spaceWords = spaceWords (w.body t) := by
  obtain ⟨ls, hls, heq⟩ := w.exists_breaks t
  rw [heq, Break.flatMap_spaceWords_dropTrailingEmpty, hls.flatMap_spaceWords]

/-- The lines of a paragraph that does not hang under a list symbol are pieces under its indent and under one and the
same start of the other lines, and the words of the pieces are those of its lines, in order. -/
theorem breakLines_words (h : w.options.hangLists = false) (t : Text) :
    let indent := (w.markers.splitLine t).indent
    w.breakLines t = under indent (continued indent) (w.pieces t) ∧
    (w.pieces t).flatMap spaceWords =
      (Text.fields isBreak t).flatMap fun line => spaceWords (w.markers.splitLine line).rest := by
  refine ⟨breakLines_of_flush h t, ?_⟩
  rw [spaceWords_pieces, body_of_flush h, spaceWords_unwrap]

theorem breakLines_words_balanced :
    let w : Wrapper := ⟨{ width := 10, ragged := true }, .code⟩
    let t := "// one  two\n\n//\n// three".toList
    w.options.hangLists = false ∧ w.breakLines t = ["// one ".toList, "// two ".toList, "// three".toList] ∧
    (w.pieces t).flatMap spaceWords = ["one".toList, "two".toList, "three".toList] := by
  intro w t
  obtain ⟨hlines, hwords⟩ := breakLines_words (w := w) rfl t
  exact ⟨rfl, by rw [hlines]; decide +kernel, by rw [hwords]; decide +kernel⟩

/-! ## Prefixes of other lines -/

/-- An indent that opens a block comment with two characters and no white space after them. -/
def BareOpener (indent : Text) : Prop :=
  indent = indent.takeWhile isBlank ++ ['/', '*']

/-- What opens a block comment has three characters, or is a slash and a star. -/
theorem length_trim_of_isOpener (h : isOpener indent = true) :
    3 ≤ (Text.trim indent).length ∨ Text.trim indent = ['/', '*'] := by
  rcases isOpener_cases h with ⟨n, heq⟩ | heq | heq
  · rw [heq]
    cases n with
    | zero => exact .inr rfl
    | succ n =>
      left
      rw [List.length_cons, List.length_replicate]
      omega
  · exact .inl (by rw [heq]; exact Nat.le_refl _)
  · exact .inl (by rw [heq]; exact Nat.le_refl _)

theorem takeWhile_append_trim {a b : Text} (heq : indent = a ++ (Text.trim indent ++ b))
    (ha : ∀ c ∈ a, isBlank c = true) (hne : Text.trim indent ≠ []) : indent.takeWhile isBlank = a := by
  obtain ⟨c, core, hcore⟩ := List.exists_cons_of_ne_nil hne
  have hc : isBlank c = false := Text.head?_strip c (by rw [← Text.trim, hcore]; rfl)
  conv => lhs; rw [heq, hcore]
  rw [List.takeWhile_append_of_pos ha, List.cons_append, List.takeWhile_cons_of_neg (by simp [hc]), List.append_nil]

theorem length_continued (indent : Text) :
    (continued indent).length ≤ indent.length ∨
      BareOpener indent ∧ (continued indent).length = indent.length + 1 := by
  by_cases hopener : isOpener indent = true
  · obtain ⟨a, b, heq, ha, -⟩ := Text.exists_strip isBlank indent
    rw [← Text.trim] at heq
    have hcore := length_trim_of_isOpener hopener
    have hne : Text.trim indent ≠ [] := by
      rintro hnil
      rw [hnil] at hcore
      simp at hcore
    have htake := takeWhile_append_trim heq ha hne
    have hlength := congrArg List.length heq
    rw [List.length_append, List.length_append] at hlength
    rw [continued, if_pos hopener, htake, List.length_append, BareOpener, htake]
    rcases hcore with hcore | hcore
    · left
      simp only [List.length_cons, List.length_nil]
      omega
    · rw [hcore] at heq hlength
      rcases eq_or_ne b [] with rfl | hb
      · right
        exact ⟨heq, by rw [hlength]; rfl⟩
      · left
        have := List.length_pos_of_ne_nil hb
        simp only [List.length_cons, List.length_nil] at hlength ⊢
        omega
  · left
    rw [continued, if_neg hopener]

/-! ## Columns -/

def columns (w : Wrapper) (t : Text) : Nat :=
  (w.expandTabs t).length

theorem columns_collapseTabs {line : Text} (hline : line ∈ w.breakLines (w.expandTabs t)) :
    w.columns (w.collapseTabs line) = line.length := by
  have htab : '\t' ∉ line := by
    intro hmem
    rcases mem_breakLines hline hmem with hmem | hmade
    · exact not_mem_expandTabs hmem
    · exact absurd hmade (by decide)
  rw [columns, expandTabs_collapseTabs htab]

theorem length_spaceWords_le_one (h : t.length ≤ 1 ∨ ' ' ∉ t) : (spaceWords t).length ≤ 1 := by
  rcases eq_or_ne t [] with rfl | hne
  · exact Nat.zero_le _
  by_cases hspace : ' ' ∈ t
  · have hsingle : t.length = 1 :=
      Nat.le_antisymm (h.resolve_right (not_not_intro hspace)) (List.length_pos_of_ne_nil hne)
    obtain ⟨c, rfl⟩ := List.length_eq_one_iff.mp hsingle
    rw [← List.mem_singleton.mp hspace]
    decide
  · rw [Break.spaceWords_of_unbroken hne hspace]
    exact Nat.le_refl _

theorem length_le_of_mem_fill {width n : Nat} {u : Text} (h : piece ∈ Break.fill (max (width - n) 1) u) :
    n + piece.length ≤ width ∨ (spaceWords piece).length ≤ 1 := by
  have hfits := Break.fits_or_unbroken_fill _ _ _ h
  rcases Nat.lt_or_ge n width with hroom | hroom
  · refine hfits.imp (fun hle => ?_) fun hspace => length_spaceWords_le_one (.inr hspace)
    omega
  · refine .inr (length_spaceWords_le_one (hfits.imp_left fun hle => ?_))
    omega

theorem length_piece_le (hflush : w.options.hangLists = false) (hfill : w.options.ragged = false)
    (hpiece : piece ∈ w.pieces t) :
    (w.markers.splitLine t).indent.length + piece.length ≤ w.options.width ∨ (spaceWords piece).length ≤ 1 := by
  rw [pieces, hfill, if_neg Bool.false_ne_true, Break.greedy, room_of_flush hflush] at hpiece
  exact length_le_of_mem_fill (Text.mem_of_mem_dropTrailingEmpty hpiece)

/-- Filled lines of a paragraph that does not hang under a list symbol keep to the width, whatever the indent is, if
they hold more than one word.  Under a bare opener the lines after the first one may be one column too wide. -/
theorem breakLines_columns (hflush : w.options.hangLists = false) (hfill : w.options.ragged = false) (t : Text) :
    let u := w.expandTabs t
    let indent := (w.markers.splitLine u).indent
    w.breakLines u = under indent (continued indent) (w.pieces u) ∧
    (∀ piece ∈ (w.pieces u).head?,
      w.columns (w.collapseTabs (indent ++ piece)) ≤ w.options.width ∨ (spaceWords piece).length ≤ 1) ∧
    ∀ piece ∈ (w.pieces u).tail,
      w.columns (w.collapseTabs (continued indent ++ piece)) ≤ w.options.width ∨ (spaceWords piece).length ≤ 1 ∨
        BareOpener indent ∧ w.columns (w.collapseTabs (continued indent ++ piece)) = w.options.width + 1 := by
  intro u indent
  have hlines : w.breakLines u = under indent (continued indent) (w.pieces u) := breakLines_of_flush hflush u
  have hpieces : ∀ piece ∈ w.pieces u,
      indent.length + piece.length ≤ w.options.width ∨ (spaceWords piece).length ≤ 1 :=
    fun piece hpiece => length_piece_le hflush hfill hpiece
  cases h : w.pieces u with
  | nil => exact ⟨h ▸ hlines, by simp, by simp⟩
  | cons first pieces =>
    rw [h] at hlines hpieces
    obtain ⟨hfirst, hpieces⟩ := List.forall_mem_cons.mp hpieces
    refine ⟨hlines, fun piece hpiece => ?_, fun piece hpiece => ?_⟩
    · obtain rfl : first = piece := Option.some.inj hpiece
      have hline : indent ++ first ∈ w.breakLines u := by
        rw [hlines]
        exact List.mem_cons_self
      rw [columns_collapseTabs hline, List.length_append]
      exact hfirst
    · have hline : continued indent ++ piece ∈ w.breakLines u := by
        rw [hlines]
        exact List.mem_cons_of_mem _ (List.mem_map_of_mem hpiece)
      rw [columns_collapseTabs hline, List.length_append]
      rcases hpieces piece hpiece with hle | hword
      · rcases length_continued indent with hshort | ⟨hbare, hlong⟩
        · exact .inl (by omega)
        · by_cases hfits : (continued indent).length + piece.length ≤ w.options.width
          · exact .inl hfits
          · exact .inr (.inr ⟨hbare, by omega⟩)
      · exact .inr (.inl hword)

theorem breakLines_columns_bare :
    let w : Wrapper := ⟨{ width := 10 }, .code⟩
    let t := "/*aaa bbbb ccc dddd".toList
    w.options.hangLists = false ∧ w.options.ragged = false ∧
    w.breakLines (w.expandTabs t) = ["/*aaa bbbb".toList, " * ccc dddd".toList] ∧
    (w.columns (w.collapseTabs "/*aaa bbbb".toList) ≤ 10 ∨ (spaceWords "aaa bbbb".toList).length ≤ 1) ∧
    (w.columns (w.collapseTabs " * ccc dddd".toList) ≤ 10 ∨ (spaceWords "ccc dddd".toList).length ≤ 1 ∨
      BareOpener "/*".toList ∧ w.columns (w.collapseTabs " * ccc dddd".toList) = 11) ∧
    w.columns (w.collapseTabs " * ccc dddd".toList) = 11 := by
  intro w t
  have hindent : (w.markers.splitLine (w.expandTabs t)).indent = "/*".toList := by decide
  have hpieces : w.pieces (w.expandTabs t) = ["aaa bbbb".toList, "ccc dddd".toList] := by
    have hbody : w.body (w.expandTabs t) = "aaa bbbb ccc dddd".toList := by decide
    have hroom : max (w.room (w.expandTabs t)) 1 = 8 := by decide
    have hcut : Break.cutLine? 8 "aaa bbbb ccc dddd".toList = some ("aaa bbbb".toList, "ccc dddd".toList) := by decide
    rw [pieces, if_neg (by decide), hbody, Break.greedy, hroom, Break.fill_cut (by decide) (by decide) hcut,
      Break.fill_of_le (by decide)]
    rfl
  obtain ⟨hlines, hfirst, hlater⟩ := breakLines_columns (w := w) rfl rfl t
  rw [hindent, hpieces] at hlines hfirst hlater
  exact ⟨rfl, rfl, hlines, hfirst _ rfl, hlater _ (List.mem_singleton_self _), by decide⟩

end Wrapper

end Reflow
