import Reflow.Proofs.Break.SingleSpaced
import Reflow.Proofs.Wrapper.Margins
import Reflow.Proofs.Wrapper.Prose

/-!
# Margins of prose

The lines of a list item keep to the width, since its symbol is taken off the columns for the words.  The indent of
any other paragraph of prose is not: its lines may be wider than the width by that much.  They keep to it just if they
are the lines for what the indent leaves of the width (`Wrapper.keepsWidth_prose_iff`).
-/

namespace Reflow

namespace Wrapper

open Reflow.Break (spaceWords SingleSpaced)

variable {w : Wrapper} {t piece : Text}

/-- Every line keeps to the width, unless a word at most comes after its prefix. -/
def KeepsWidth (w : Wrapper) (t : Text) : Prop :=
  (∀ piece ∈ (w.pieces t).head?,
    ((w.indents t).first ++ piece).length ≤ w.options.width ∨ (spaceWords piece).length ≤ 1) ∧
  ∀ piece ∈ (w.pieces t).tail,
    ((w.indents t).later ++ piece).length ≤ w.options.width ∨ (spaceWords piece).length ≤ 1

theorem keepsWidth_iff {n : Nat} (hfirst : (w.indents t).first.length = n) (hlater : (w.indents t).later.length = n) :
    w.KeepsWidth t ↔ ∀ piece ∈ w.pieces t, n + piece.length ≤ w.options.width ∨ (spaceWords piece).length ≤ 1 := by
  rw [KeepsWidth]
  simp only [List.length_append, hfirst, hlater]
  cases w.pieces t with
  | nil => simp
  | cons piece pieces => simp

theorem not_isOpener_of_not_mem (hstar : '*' ∉ t) (hdouble : '"' ∉ t) (hsingle : '\'' ∉ t) :
    isOpener t = false := by
  refine Bool.eq_false_iff.mpr fun hopener => ?_
  have hmem : ∀ c ∈ Text.trim t, c ∈ t := fun c hc => Text.mem_of_mem_strip hc
  rcases isOpener_cases hopener with ⟨n, heq⟩ | heq | heq
  · exact hstar (hmem '*' (by rw [heq]; simp [List.replicate_succ]))
  · exact hdouble (hmem '"' (by rw [heq]; exact List.mem_cons_self))
  · exact hsingle (hmem '\'' (by rw [heq]; exact List.mem_cons_self))

namespace IsProse

variable (hw : w.IsProse)
include hw

theorem not_isOpener_indent (t : Text) : isOpener (w.markers.splitLine t).indent = false := by
  have hmem : ∀ c, isFiller c = false → c ≠ '/' → isTagChar c = false → c ∉ (w.markers.splitLine t).indent := by
    intro c hfiller hslash htag hc
    rw [hw.markers] at hc
    rcases Pattern.leads_proseLeaders.mem_indent_cases hc with h | ⟨l, rfl, h⟩ | h
    · rw [hfiller] at h
      cases h
    · rcases List.mem_pair.mp h with h | h <;> exact hslash h
    · rw [htag] at h
      cases h
  exact not_isOpener_of_not_mem (hmem '*' (by decide) (by decide) (by decide))
    (hmem '"' (by decide) (by decide) (by decide)) (hmem '\'' (by decide) (by decide) (by decide))

theorem indents_of_none (h : listSymbol? t = none) :
    w.indents t = ⟨[], (w.markers.splitLine t).indent, (w.markers.splitLine t).indent⟩ := by
  simp [indents, h, hw.hang, hw.not_isOpener_indent]

theorem indents_of_some {symbol : Text} (h : listSymbol? t = some symbol) :
    w.indents t = ⟨symbol, symbol, List.replicate symbol.length ' '⟩ := by
  obtain ⟨a, b, c, -, rfl, -, -, hb, -⟩ := exists_of_listSymbol? h
  simp [indents, h, hw.hang, hw.not_isOpener_indent, hb.ne_nil]

theorem room_eq (t : Text) : w.room t = w.options.width - (w.indents t).symbol.length :=
  if_pos hw.hang

theorem length_symbol_piece_le (hfill : w.options.ragged = false) (t : Text) :
    ∀ piece ∈ w.pieces t,
      (w.indents t).symbol.length + piece.length ≤ w.options.width ∨ (spaceWords piece).length ≤ 1 := by
  intro piece hpiece
  rw [pieces, hfill, if_neg Bool.false_ne_true, Break.greedy, hw.room_eq] at hpiece
  exact length_le_of_mem_fill (Text.mem_of_mem_dropTrailingEmpty hpiece)

theorem keepsWidth_of_none (h : listSymbol? t = none) :
    w.KeepsWidth t ↔ ∀ piece ∈ w.pieces t,
      (w.markers.splitLine t).indent.length + piece.length ≤ w.options.width ∨ (spaceWords piece).length ≤ 1 := by
  have hindents := hw.indents_of_none h
  exact keepsWidth_iff (by rw [hindents]) (by rw [hindents])

theorem keepsWidth_of_some {symbol : Text} (h : listSymbol? t = some symbol) (hfill : w.options.ragged = false) :
    w.KeepsWidth t := by
  have hindents := hw.indents_of_some h
  refine (keepsWidth_iff ?_ ?_).mpr (hw.length_symbol_piece_le hfill t)
  · rw [hindents]
  · rw [hindents, List.length_replicate]

/-- The indent of a paragraph without a list symbol is left out of account: the lines keep to the width just if they
are those for the columns that it leaves. -/
theorem keepsWidth_iff_pieces_eq (hfill : w.options.ragged = false) (hsymbol : listSymbol? t = none)
    (hwords : SingleSpaced (w.unwrap t)) :
    w.KeepsWidth t ↔
      w.pieces t = Break.greedy (w.unwrap t) (w.options.width - (w.markers.splitLine t).indent.length) := by
  have hindents := hw.indents_of_none hsymbol
  have hpieces : w.pieces t = Break.greedy (w.unwrap t) w.options.width := by
    simp [pieces, hfill, body, hw.room_eq, hindents]
  rw [hw.keepsWidth_of_none hsymbol, hpieces, Break.greedy_eq_greedy_iff (Nat.sub_le _ _) hwords]
  refine forall₂_congr fun piece hpiece => ?_
  have hsingle := hwords.of_mem_greedy hpiece
  rw [hsingle.length_spaceWords_le_one_iff]
  constructor
  · exact Or.imp_left fun hle => by omega
  · rintro (hle | hspace)
    · rcases Nat.lt_or_ge (w.markers.splitLine t).indent.length w.options.width with hroom | hroom
      · exact .inl (by omega)
      · refine .inr (hsingle.length_spaceWords_le_one_iff.mp (length_spaceWords_le_one (.inl (by omega))))
    · exact .inr hspace

end IsProse

/-- The lines of prose are pieces under its list symbol or its indent.  They are filled to the width without the list
symbol, so that the lines of a list item keep to the width if more than one word comes after their prefix.  The lines
of other paragraphs may be wider by the indent: they keep to the width just if each piece keeps to what the indent
leaves of it; of words with single spaces between them, just if the pieces are the filled lines for that. -/
theorem keepsWidth_prose_iff (hw : w.IsProse) (hfill : w.options.ragged = false) (t : Text) :
    let indent := (w.markers.splitLine t).indent
    w.breakLines t = under (w.indents t).first (w.indents t).later (w.pieces t) ∧
    (∀ piece ∈ w.pieces t,
      (w.indents t).symbol.length + piece.length ≤ w.options.width ∨ (spaceWords piece).length ≤ 1) ∧
    (w.KeepsWidth t ↔ listSymbol? t ≠ none ∨
      ∀ piece ∈ w.pieces t, indent.length + piece.length ≤ w.options.width ∨ (spaceWords piece).length ≤ 1) ∧
    (listSymbol? t = none → SingleSpaced (w.unwrap t) →
      (w.KeepsWidth t ↔ w.pieces t = Break.greedy (w.unwrap t) (w.options.width - indent.length))) := by
  intro indent
  refine ⟨breakLines_eq_under w t, hw.length_symbol_piece_le hfill t, ?_, hw.keepsWidth_iff_pieces_eq hfill⟩
  cases hsymbol : listSymbol? t with
  | none => simpa using hw.keepsWidth_of_none hsymbol
  | some symbol => simpa using hw.keepsWidth_of_some hsymbol hfill

/-- Of an indented paragraph the first line is wider than the width. -/
theorem not_keepsWidth_indented :
    let w : Wrapper := ⟨{ Options.prose with width := 8 }, .prose⟩
    let t := "    aaa bbb ccc".toList
    w.IsProse ∧ w.options.ragged = false ∧ listSymbol? t = none ∧ SingleSpaced (w.unwrap t) ∧
    w.breakLines t = ["    aaa bbb".toList, "    ccc".toList] ∧
    Break.greedy (w.unwrap t) (8 - "    ".toList.length) = ["aaa".toList, "bbb".toList, "ccc".toList] ∧
    ¬w.KeepsWidth t := by
  intro w t
  have hw : w.IsProse := isProse_of_ofOptions? (o := { Options.prose with width := 8 }) rfl rfl rfl
  have hindent : (w.markers.splitLine t).indent = "    ".toList := by decide
  have hunwrap : w.unwrap t = "aaa bbb ccc".toList := by decide
  have hwide : w.pieces t = ["aaa bbb".toList, "ccc".toList] := by
    have hgreedy : Break.greedy? 12 "aaa bbb ccc".toList 8 = some ["aaa bbb".toList, "ccc".toList] := by decide
    exact Break.greedy_eq_of_greedy? (by decide) hgreedy
  have hnarrow : Break.greedy (w.unwrap t) (8 - "    ".toList.length) = ["aaa".toList, "bbb".toList, "ccc".toList] := by
    have hgreedy : Break.greedy? 12 "aaa bbb ccc".toList 4 = some ["aaa".toList, "bbb".toList, "ccc".toList] := by
      decide
    exact Break.greedy_eq_of_greedy? (by decide) hgreedy
  obtain ⟨hlines, -, -, hkeeps⟩ := keepsWidth_prose_iff hw rfl t
  have hsymbol : listSymbol? t = none := by decide
  have hsingle : SingleSpaced (w.unwrap t) := by decide
  refine ⟨hw, rfl, hsymbol, hsingle, ?_, hnarrow, ?_⟩
  · rw [hlines, hwide]
    decide
  · rw [hkeeps hsymbol hsingle, hindent, hwide]
    exact fun heq => absurd (heq.trans hnarrow) (by decide)

end Wrapper

end Reflow
