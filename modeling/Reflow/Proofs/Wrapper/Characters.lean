import Reflow.Wrapper.Basic
import Reflow.Proofs.Break.Lines
import Reflow.Proofs.Comment.ListSymbol
import Reflow.Proofs.Pattern.Search
import Reflow.Proofs.Text.Strip

/-!
# Where the characters come from

Wrapping writes no characters but those of the text and a few of its own: spaces, line feeds, and
the stars of block comments.  This is what `Wrapper.mem_wrapExpanded` says.
-/

namespace Reflow

def isMade (c : Char) : Bool := c = ' ' || c = '\n' || c = '*'

namespace Markers

variable {markers : Markers} {t : Text} {c : Char}

theorem mem_of_mem_rest (h : c ∈ (markers.splitLine t).rest) : c ∈ t := by
  unfold splitLine at h
  split at h
  · rename_i m hm
    rw [Pattern.eq_of_find? hm]
    exact List.mem_append_right _ (Text.mem_of_mem_strip h)
  · exact h

theorem mem_of_mem_indent (h : c ∈ (markers.splitLine t).indent) : c ∈ t := by
  unfold splitLine at h
  split at h
  · rename_i m hm
    rw [Pattern.eq_of_find? hm]
    exact List.mem_append_left _ (List.mem_append_right _ (List.mem_of_mem_filter h))
  · exact absurd h List.not_mem_nil

end Markers

theorem isPrefix_of_listSymbol? {t symbol : Text} (h : listSymbol? t = some symbol) : symbol <+: t := by
  obtain ⟨-, -, -, rest, -, ht, -⟩ := exists_of_listSymbol? h
  exact ⟨rest, ht.symm⟩

namespace Wrapper

variable {w : Wrapper} {t : Text} {c : Char}

theorem mem_unwrap (h : c ∈ w.unwrap t) : c ∈ t ∨ isMade c = true := by
  rcases Text.mem_join h with rfl | ⟨line, hline, hc⟩
  · exact .inr rfl
  · obtain ⟨field, hfield, rfl⟩ := List.mem_map.mp hline
    have hmem := List.mem_of_mem_filter hfield
    exact .inl (Text.mem_of_mem_split hmem c (Markers.mem_of_mem_rest hc))

theorem mem_body (h : c ∈ w.body t) : c ∈ t ∨ isMade c = true := by
  unfold body dropSymbol at h
  simp only at h
  split at h
  · exact mem_unwrap h
  · split at h
    · rename_i rest hrest
      refine mem_unwrap (Text.mem_of_after? hrest ?_)
      exact (List.dropWhile_sublist _).mem h
    · exact mem_unwrap h

theorem exists_breaks (w : Wrapper) (t : Text) :
    ∃ ls, Break.Breaks (w.body t) ls ∧ w.pieces t = Text.dropTrailingEmpty ls := by
  unfold pieces
  split
  · exact ⟨_, Break.breaks_ragged _ _, rfl⟩
  · exact ⟨_, Break.breaks_fill _ _, rfl⟩

theorem mem_pieces {piece : Text} (hpiece : piece ∈ w.pieces t) (h : c ∈ piece) :
    c ∈ t ∨ isMade c = true := by
  obtain ⟨ls, hls, heq⟩ := w.exists_breaks t
  rw [heq] at hpiece
  exact mem_body (hls.mem (Text.mem_of_mem_dropTrailingEmpty hpiece) h)

theorem mem_indents_symbol (h : c ∈ (w.indents t).symbol) : c ∈ t := by
  simp only [indents] at h
  split at h
  · cases hsymbol : listSymbol? t with
    | none => simp [hsymbol] at h
    | some symbol =>
      rw [hsymbol, Option.getD_some] at h
      exact (isPrefix_of_listSymbol? hsymbol).subset h
  · exact absurd h List.not_mem_nil

theorem mem_indents_first (h : c ∈ (w.indents t).first) : c ∈ t := by
  by_cases hsymbol : (w.indents t).symbol.isEmpty
  · have hfirst : (w.indents t).first = (w.markers.splitLine t).indent := if_pos hsymbol
    rw [hfirst] at h
    exact Markers.mem_of_mem_indent h
  · have hfirst : (w.indents t).first = (w.indents t).symbol := if_neg hsymbol
    rw [hfirst] at h
    exact mem_indents_symbol h

theorem mem_indents_later (h : c ∈ (w.indents t).later) : c ∈ t ∨ isMade c = true := by
  simp only [indents] at h
  split at h
  · rcases List.mem_append.mp h with h | h
    · exact .inl (Markers.mem_of_mem_indent ((List.takeWhile_sublist _).mem h))
    · simp only [List.mem_cons, List.not_mem_nil, or_false] at h
      rcases h with rfl | rfl | rfl <;> exact .inr rfl
  · by_cases hsymbol : (w.indents t).symbol.isEmpty
    · rw [if_pos (by exact hsymbol)] at h
      exact .inl (Markers.mem_of_mem_indent h)
    · rw [if_neg (by exact hsymbol)] at h
      rw [List.eq_of_mem_replicate h]
      exact .inr rfl

theorem mem_breakLines {line : Text} (hline : line ∈ w.breakLines t) (h : c ∈ line) :
    c ∈ t ∨ isMade c = true := by
  unfold breakLines at hline
  split at hline
  · exact absurd hline List.not_mem_nil
  · rename_i piece pieces hpieces
    have hpiece : ∀ p ∈ piece :: pieces, c ∈ p → c ∈ t ∨ isMade c = true := by
      intro p hp
      rw [← hpieces] at hp
      exact mem_pieces hp
    rcases List.mem_cons.mp hline with rfl | hline
    · rcases List.mem_append.mp h with h | h
      · exact .inl (mem_indents_first h)
      · exact hpiece piece List.mem_cons_self h
    · obtain ⟨p, hp, rfl⟩ := List.mem_map.mp hline
      rcases List.mem_append.mp h with h | h
      · exact mem_indents_later h
      · exact hpiece p (List.mem_cons_of_mem _ hp) h

theorem mem_terminated {ls : List Text} (h : c ∈ terminated ls) :
    (∃ line ∈ ls, c ∈ line) ∨ isMade c = true := by
  obtain ⟨line, hline, h⟩ := List.mem_flatMap.mp h
  rcases List.mem_append.mp h with h | h
  · exact .inl ⟨line, hline, h⟩
  · rw [List.mem_singleton.mp h]
    exact .inr rfl

theorem mem_terminated_breakLines (h : c ∈ terminated (w.breakLines t)) : c ∈ t ∨ isMade c = true := by
  rcases mem_terminated h with ⟨line, hline, h⟩ | h
  · exact mem_breakLines hline h
  · exact .inr h

theorem mem_wrapBetween {whole pending last : Text} {cuts : List Pattern.Cut}
    (h : c ∈ w.wrapBetween whole pending cuts last) :
    c ∈ pending ++ Pattern.uncut cuts last ∨ isMade c = true := by
  induction cuts generalizing pending with
  | nil =>
    rw [wrapBetween] at h
    split at h
    · exact absurd h List.not_mem_nil
    · exact mem_terminated_breakLines h
  | cons cut cuts ih =>
    have hgap : c ∈ pending ++ cut.gap → c ∈ pending ++ Pattern.uncut (cut :: cuts) last := by
      rw [Pattern.uncut, ← List.append_assoc]
      exact List.mem_append_left _
    have hhit : c ∈ cut.hit → c ∈ pending ++ Pattern.uncut (cut :: cuts) last := by
      rw [Pattern.uncut]
      simp +contextual
    have hlast : c ∈ Pattern.uncut cuts last → c ∈ pending ++ Pattern.uncut (cut :: cuts) last := by
      rw [Pattern.uncut]
      simp +contextual
    rw [wrapBetween] at h
    split at h
    · rcases ih h with h | h
      · rcases List.mem_append.mp h with h | h
        · exact .inl (hgap h)
        · exact .inl (hlast h)
      · exact .inr h
    · simp only [List.mem_append] at h
      rcases h with ((h | h) | h) | h
      · split at h
        · rcases List.mem_append.mp h with h | h
          · exact .inl (hhit h)
          · rw [List.mem_singleton.mp h]
            exact .inr rfl
        · exact absurd h List.not_mem_nil
      · rcases mem_terminated_breakLines h with h | h
        · exact .inl (hgap h)
        · exact .inr h
      · split at h
        · exact .inl (hhit h)
        · exact absurd h List.not_mem_nil
      · rcases ih h with h | h
        · exact .inl (hlast h)
        · exact .inr h

theorem dropFinalBreak_cases (t : Text) : t = dropFinalBreak t ∨ t = dropFinalBreak t ++ ['\n'] := by
  unfold dropFinalBreak
  split
  · rename_i hlast
    exact .inr (List.dropLast_append_getLast? _ hlast).symm
  · exact .inl rfl

theorem mem_of_mem_dropFinalBreak (h : c ∈ dropFinalBreak t) : c ∈ t := by
  rcases dropFinalBreak_cases t with heq | heq
  · rwa [heq]
  · rw [heq]
    exact List.mem_append_left _ h

theorem wrapParagraph_eq (w : Wrapper) (t : Text) :
    w.wrapParagraph t = dropFinalBreak
      (w.wrapBetween t [] (w.markers.bareLine.cuts t).1 (w.markers.bareLine.cuts t).2) := rfl

theorem mem_wrapParagraph (h : c ∈ w.wrapParagraph t) : c ∈ t ∨ isMade c = true := by
  rw [wrapParagraph_eq] at h
  rcases mem_wrapBetween (mem_of_mem_dropFinalBreak h) with h | h
  · rw [List.nil_append, Pattern.uncut_cuts] at h
    exact .inl h
  · exact .inr h

theorem mem_wrapAround {cuts : List Pattern.Cut} {last : Text} (h : c ∈ w.wrapAround cuts last) :
    c ∈ Pattern.uncut cuts last ∨ isMade c = true := by
  induction cuts with
  | nil =>
    rw [wrapAround] at h
    split at h
    · exact absurd h List.not_mem_nil
    · exact mem_wrapParagraph h
  | cons cut cuts ih =>
    rw [Pattern.uncut, List.mem_append, List.mem_append]
    rw [wrapAround, List.mem_append, List.mem_append] at h
    rcases h with (h | h) | h
    · exact (mem_wrapParagraph h).imp_left .inl
    · exact .inl (.inr (.inl h))
    · exact (ih h).imp_left fun h => .inr (.inr h)

theorem mem_wrapExpanded (h : c ∈ w.wrapExpanded t) : c ∈ t ∨ isMade c = true := by
  have haround : ∀ d ∈ w.wrapAround (w.markers.separator.cuts t).1 (w.markers.separator.cuts t).2,
      d ∈ t ∨ isMade d = true := by
    intro d hd
    have := mem_wrapAround hd
    rwa [Pattern.uncut_cuts] at this
  unfold wrapExpanded at h
  simp only at h
  split at h
  · rcases List.mem_append.mp h with h | h
    · exact haround c h
    · rw [List.mem_singleton.mp h]
      exact .inr rfl
  · exact haround c h

end Wrapper

end Reflow
