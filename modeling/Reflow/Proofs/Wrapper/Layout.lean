import Reflow.Proofs.Wrapper.Paragraph

/-!
# Texts with given lines

What wrapping a paragraph writes is a text with certain lines, with or without a line feed at its
end (`HasLines`).  Reading such a text gives the lines back, and its indent is that of its first
line.
-/

namespace Reflow

/-- The text has the given lines, with or without a line feed at the end. -/
def HasLines (t : Text) (ls : List Text) : Prop :=
  t = Text.ofLines ls ∨ t = Text.ofLines ls ++ ['\n']

/-- Lines without line breaks, of which the last one is not empty. -/
structure ProperLines (ls : List Text) : Prop where
  ne_nil : ls ≠ []
  unbroken : ∀ line ∈ ls, ∀ c ∈ line, isBreak c = false
  last : ls.getLast? ≠ some []

instance (ls : List Text) : Decidable (ProperLines ls) :=
  decidable_of_iff (ls ≠ [] ∧ (ls.all fun line => line.all fun c => !isBreak c) = true ∧ ls.getLast? ≠ some [])
    ⟨fun ⟨hne, hunbroken, hlast⟩ => ⟨hne, by simpa using hunbroken, hlast⟩,
      fun h => ⟨h.ne_nil, by simpa using h.unbroken, h.last⟩⟩

variable {t line : Text} {ls ls' : List Text}

theorem ProperLines.split_ofLines (h : ProperLines ls) : Text.split isBreak (Text.ofLines ls) = ls :=
  Text.split_join rfl h.ne_nil h.unbroken

theorem HasLines.closedLines_eq (ht : HasLines t ls) (h : ProperLines ls) : Text.closedLines t = ls := by
  rcases ht with rfl | rfl
  · rw [Text.closedLines, h.split_ofLines, if_neg h.last]
  · rw [Text.closedLines, Text.split_append rfl, h.split_ofLines]
    simp

theorem HasLines.unique (ht : HasLines t ls) (ht' : HasLines t ls') (h : ProperLines ls)
    (h' : ProperLines ls') : ls = ls' := by
  rw [← ht.closedLines_eq h, ht'.closedLines_eq h']

theorem HasLines.fields_eq (ht : HasLines t ls) (h : ProperLines ls) (hne : [] ∉ ls) :
    Text.fields isBreak t = ls := by
  have hfilter : ls.filter (fun line => !line.isEmpty) = ls := by
    refine List.filter_eq_self.mpr fun line hline => ?_
    have : line ≠ [] := fun hnil => hne (hnil ▸ hline)
    simpa using this
  rcases ht with rfl | rfl
  · rw [Text.fields, h.split_ofLines, hfilter]
  · rw [Text.fields, Text.split_append rfl, h.split_ofLines, List.filter_append, hfilter]
    simp

theorem ProperLines.getLast?_ofLines_ne (h : ProperLines ls) :
    (Text.ofLines ls).getLast? ≠ some '\n' := by
  intro hlast
  have hsplit := h.split_ofLines
  rw [← List.dropLast_append_getLast? _ hlast, Text.split_append rfl] at hsplit
  exact h.last (by rw [← hsplit]; simp)

theorem ProperLines.ofLines_ne_nil (h : ProperLines ls) : Text.ofLines ls ≠ [] := by
  intro hnil
  have hsplit := h.split_ofLines
  rw [hnil] at hsplit
  exact h.last (by rw [← hsplit]; rfl)

theorem HasLines.closeLike_eq (ht : HasLines t ls) (h : ProperLines ls) :
    Wrapper.closeLike t (Text.ofLines ls) = t := by
  have hlast := h.getLast?_ofLines_ne
  rcases ht with rfl | rfl <;> simp [Wrapper.closeLike, hlast]

theorem HasLines.not_mem_cr (ht : HasLines t ls) (h : ProperLines ls) : '\r' ∉ t := by
  have hjoin : '\r' ∉ Text.ofLines ls := by
    intro hmem
    rcases Text.mem_join hmem with heq | ⟨line, hline, hmem⟩
    · cases heq
    · have := h.unbroken line hline _ hmem
      cases this
  rcases ht with rfl | rfl
  · exact hjoin
  · simpa using hjoin

theorem hasLines_closeLike (t : Text) (ls : List Text) :
    HasLines (Wrapper.closeLike t (Text.ofLines ls)) ls := by
  exact Wrapper.closeLike_cases t (Text.ofLines ls)

theorem HasLines.map {f : Text → Text} (hnil : f [] = []) (hf : ∀ x y, f (x ++ '\n' :: y) = f x ++ '\n' :: f y)
    (ht : HasLines t ls) : HasLines (f t) (ls.map f) := by
  have hjoin : f (Text.ofLines ls) = Text.ofLines (ls.map f) := by
    clear ht
    induction ls with
    | nil => exact hnil
    | cons line ls ih =>
      rcases eq_or_ne ls [] with rfl | hne
      · rw [Text.ofLines, Text.join_singleton, List.map_singleton, Text.ofLines, Text.join_singleton]
      · rw [Text.ofLines, Text.join_cons hne, hf, ← Text.ofLines, ih, List.map_cons, Text.ofLines, Text.ofLines,
          Text.join_cons (by simpa using hne)]
  rcases ht with rfl | rfl
  · exact .inl hjoin
  · exact .inr (by rw [hf, hjoin, hnil])

theorem HasLines.cons_cases (ht : HasLines t (line :: ls)) : t = line ∨ ∃ rest, t = line ++ '\n' :: rest := by
  have hcases : Text.ofLines (line :: ls) = line ∨ ∃ rest, Text.ofLines (line :: ls) = line ++ '\n' :: rest := by
    rcases eq_or_ne ls [] with rfl | hls
    · exact .inl Text.join_singleton
    · exact .inr ⟨_, Text.join_cons hls⟩
  rcases ht with rfl | rfl
  · exact hcases
  · rcases hcases with h | ⟨rest, h⟩
    · exact .inr ⟨[], by rw [h]⟩
    · exact .inr ⟨rest ++ ['\n'], by rw [h]; simp⟩

namespace Markers

open Pattern

theorem indent_splitLine_append {c : Char} {rest : Text} (hc : isBreak c = true) (h : ¬Indent line) :
    (code.splitLine (line ++ c :: rest)).indent = (code.splitLine line).indent := by
  obtain ⟨m, r, hlongest⟩ := exists_longest_indent line
  obtain ⟨hsplit, hindent, hle⟩ := longest_indent_iff.mp hlongest
  have hwhole : LongestAt code.indent none (line ++ c :: rest) m (r ++ c :: rest) := by
    refine longest_indent_iff.mpr ⟨by rw [hsplit, List.append_assoc], hindent, fun n rest' hn hindent' => ?_⟩
    rcases append_eq_append_cons hn.symm with ⟨e, he, -⟩ | ⟨e, rfl, -⟩
    · exact hle n e he hindent'
    · exact absurd (hindent'.split (isBlank_of_isBreak_ne hc).1 (isBlank_of_isBreak_ne hc).2).1 h
  rw [splitLine_eq hlongest, splitLine_eq hwhole]

theorem indent_splitLine_of_hasLines (ht : HasLines t (line :: ls)) (h : ¬Indent line) :
    (code.splitLine t).indent = (code.splitLine line).indent := by
  rcases ht.cons_cases with rfl | ⟨rest, rfl⟩
  · rfl
  · exact indent_splitLine_append rfl h

end Markers

namespace Wrapper

variable {w : Wrapper} {u : Text}

/-! ## What the lines of a paragraph depend on -/

theorem IsCode.indents_eq (hw : w.IsCode)
    (h : (w.markers.splitLine t).indent = (w.markers.splitLine u).indent) : w.indents t = w.indents u := by
  rw [indents_of_flush hw.flush, indents_of_flush hw.flush, h]

theorem IsCode.room_congr (hw : w.IsCode)
    (h : (w.markers.splitLine t).indent = (w.markers.splitLine u).indent) : w.room t = w.room u := by
  rw [hw.room_eq, hw.room_eq, h]

theorem breakLines_of_pieces {piece : Text} {pieces : List Text} (h : w.pieces t = piece :: pieces) :
    w.breakLines t =
      ((w.indents t).first ++ piece) :: pieces.map fun piece => (w.indents t).later ++ piece := by
  rw [breakLines, h]

theorem expandedWrap_of_pieces {piece : Text} {pieces : List Text} (hw : w.markers = .code)
    (hexpand : w.expandTabs (LineEnding.normalize t) = u) (hu : Worded u) (hne : u ≠ [])
    (h : w.pieces u = piece :: pieces) :
    w.expandedWrap t = closeLike u (Text.ofLines
      (((w.indents u).first ++ piece) :: pieces.map fun piece => (w.indents u).later ++ piece)) := by
  rw [expandedWrap, hexpand, wrapExpanded_of_worded hw hu hne, breakLines_of_pieces h]

theorem unwrap_of_hasLines (ht : HasLines t ls) (h : ProperLines ls) (hne : [] ∉ ls) :
    w.unwrap t = Text.join ' ' (ls.map fun line => (w.markers.splitLine line).rest) := by
  rw [unwrap, ht.fields_eq h hne]

/-! ## The lines of a paragraph -/

theorem not_isBreak_of_mem_indent {markers : Markers} {c : Char} (h : c ∈ (markers.splitLine t).indent) :
    isBreak c = false := by
  unfold Markers.splitLine at h
  split at h
  · simpa using (List.mem_filter.mp h).2
  · exact absurd h List.not_mem_nil

theorem not_isBreak_of_mem_unwrap {c : Char} (h : c ∈ w.unwrap t) : isBreak c = false := by
  rcases Text.mem_join h with rfl | ⟨rest, hrest, hc⟩
  · rfl
  · obtain ⟨line, hline, rfl⟩ := List.mem_map.mp hrest
    exact Text.not_sep_of_mem_split (List.mem_of_mem_filter hline) c (Markers.mem_of_mem_rest hc)

theorem IsCode.not_isBreak_of_mem_indents (hw : w.IsCode) {c : Char}
    (h : c ∈ (w.indents t).first ∨ c ∈ (w.indents t).later) : isBreak c = false := by
  rcases h with h | h
  · rw [hw.first_eq] at h
    exact not_isBreak_of_mem_indent h
  · rw [hw.later_eq, continued] at h
    split at h
    · rcases List.mem_append.mp h with h | h
      · exact not_isBreak_of_mem_indent ((List.takeWhile_sublist _).mem h)
      · simp only [List.mem_cons, List.not_mem_nil, or_false] at h
        rcases h with rfl | rfl | rfl <;> rfl
    · exact not_isBreak_of_mem_indent h

theorem getLast?_pieces_ne (w : Wrapper) (t : Text) : (w.pieces t).getLast? ≠ some [] := by
  obtain ⟨ls, -, heq⟩ := w.exists_breaks t
  rw [heq]
  exact Text.getLast?_dropTrailingEmpty_ne ls

theorem not_isBreak_of_mem_pieces (hw : w.IsCode) {piece : Text} (hpiece : piece ∈ w.pieces t) {c : Char}
    (hc : c ∈ piece) : isBreak c = false := by
  obtain ⟨ls, hls, heq⟩ := w.exists_breaks t
  rw [heq] at hpiece
  have := hls.mem (Text.mem_of_mem_dropTrailingEmpty hpiece) hc
  rw [hw.body_eq] at this
  exact not_isBreak_of_mem_unwrap this

theorem IsCode.properLines_breakLines (hw : w.IsCode) (h : w.pieces t ≠ []) :
    ProperLines (w.breakLines t) := by
  obtain ⟨piece, pieces, hcons⟩ := List.exists_cons_of_ne_nil h
  have hlast := w.getLast?_pieces_ne t
  have hbreak : ∀ p ∈ piece :: pieces, ∀ c ∈ p, isBreak c = false := by
    rw [← hcons]
    exact fun p hp c hc => not_isBreak_of_mem_pieces hw hp hc
  rw [breakLines_of_pieces hcons]
  rw [hcons] at hlast
  refine ⟨List.cons_ne_nil _ _, fun line hline c hc => ?_, ?_⟩
  · rcases List.mem_cons.mp hline with rfl | hline
    · rcases List.mem_append.mp hc with hc | hc
      · exact hw.not_isBreak_of_mem_indents (.inl hc)
      · exact hbreak piece List.mem_cons_self c hc
    · obtain ⟨p, hp, rfl⟩ := List.mem_map.mp hline
      rcases List.mem_append.mp hc with hc | hc
      · exact hw.not_isBreak_of_mem_indents (.inr hc)
      · exact hbreak p (List.mem_cons_of_mem _ hp) c hc
  · rcases eq_or_ne pieces [] with rfl | hne
    · simp_all
    · rw [List.getLast?_cons_of_ne_nil hne] at hlast
      rw [List.getLast?_cons_of_ne_nil (by simpa using hne), List.getLast?_map]
      intro hsome
      obtain ⟨p, hp, hnil⟩ := Option.map_eq_some_iff.mp hsome
      rw [(List.append_eq_nil_iff.mp hnil).2] at hp
      exact hlast hp

/-! ## The lines of what is written -/

/-- Wrapping writes the lines of the wrapped text with their tabs put back, whatever the line endings are. -/
theorem hasLines_wrap (h : HasLines (w.expandedWrap t) ls) (hls : ProperLines ls) :
    HasLines (LineEnding.normalize (w.wrap t)) (ls.map w.collapseTabs) ∧ ProperLines (ls.map w.collapseTabs) := by
  have hcr : '\r' ∉ w.collapseTabs (w.expandedWrap t) :=
    not_mem_collapseTabs (by decide) (by decide) (h.not_mem_cr hls)
  have htab : ∀ line ∈ ls, '\t' ∉ line := by
    intro line hline hmem
    have hmem' : '\t' ∈ Text.ofLines ls := Text.mem_join_of_mem hline hmem
    refine not_mem_expandedWrap (w := w) (t := t) ?_
    rcases h with h | h <;> simp [h, hmem']
  refine ⟨?_, by simpa using hls.ne_nil, ?_, ?_⟩
  · rw [wrap_eq_apply, LineEnding.normalize_apply _ hcr]
    exact h.map rfl fun x y => collapseTabs_append (by decide)
  · intro line hline c hc
    obtain ⟨line, hmem, rfl⟩ := List.mem_map.mp hline
    rcases mem_collapseFrom hc with rfl | rfl | hc
    · rfl
    · rfl
    · exact hls.unbroken line hmem c hc
  · rw [List.getLast?_map]
    intro hlast
    obtain ⟨line, hline, hnil⟩ := Option.map_eq_some_iff.mp hlast
    have hempty := expandTabs_collapseTabs (w := w) (htab line (List.mem_of_getLast? hline))
    rw [hnil] at hempty
    exact hls.last (by rw [hline, ← hempty]; rfl)

end Wrapper

end Reflow
