import Reflow.Editor.LineView
import Reflow.Proofs.Text.Lines

/-!
# Drawn lines

A line is drawn character by character into pieces of one shade.  What one character adds to the pieces is its own
cells, whether or not a piece ends there (`LineView.pieceCells_draw`), and so the pieces of a whole line hold the cells
of its characters one after the other, and perhaps one for its break (`LineView.cells_spans`).
-/

namespace Reflow

def cells (spans : List Span) : List (Char × Style) :=
  spans.flatMap fun span => span.text.map fun c => (c, span.style)

/-! ## What is selected in a line -/

namespace Selection

/-- A selection that starts and stops at some columns of some lines covers all characters of the lines between, and in
these two lines those from the column where it starts, and before the column where it stops. -/
structure Covers (s : Selection) (line n : Nat) : Prop where
  start_le : s.start.line ≤ line
  le_stop : line ≤ s.stop.line
  column_le : line = s.start.line → s.start.column ≤ n
  lt_column : line = s.stop.line → n < s.stop.column

/-- A selection covers the break of each of its lines except the last one. -/
structure CoversBreak (s : Selection) (line : Nat) : Prop where
  start_le : s.start.line ≤ line
  lt_stop : line < s.stop.line

variable {s : Selection} {line n : Nat}

theorem contains_iff : s.contains ⟨line, n⟩ = true ↔ s.Covers line n := by
  simp only [contains, Position.isBefore, Bool.and_eq_true, Bool.not_eq_true', Bool.or_eq_false_iff,
    Bool.and_eq_false_iff, Bool.or_eq_true, decide_eq_true_eq, decide_eq_false_iff_not]
  constructor
  · rintro ⟨hstart, hstop⟩
    exact ⟨by omega, by omega, by omega, by omega⟩
  · rintro ⟨h₁, h₂, h₃, h₄⟩
    omega

theorem containsBreak_iff : s.containsBreak line = true ↔ s.CoversBreak line := by
  rw [containsBreak, Bool.and_eq_true, decide_eq_true_eq, decide_eq_true_eq]
  exact ⟨fun h => ⟨h.1, h.2⟩, fun h => ⟨h.start_le, h.lt_stop⟩⟩

instance : Decidable (s.Covers line n) :=
  decidable_of_iff _ contains_iff

instance : Decidable (s.CoversBreak line) :=
  decidable_of_iff _ containsBreak_iff

end Selection

namespace LineView

variable (v : LineView) (inParagraph : Bool) {t : Text} {d : Drawing} {n : Nat} {c : Char}

/-- The shade of the character with the given index: whether it is selected, and else whether the characters before it
reach the wrap column. -/
def shadeAt (t : Text) (n : Nat) : Shade :=
  if ∃ s ∈ v.selection, s.Covers v.line n then .selected
  else if v.wrapColumn ≤ displayColumn v.tabWidth t n then .overflow
  else .normal

/-- The cells of a character with its index: the character, or as many blanks as a tab has columns. -/
def cellsAt (t : Text) (p : Char × Nat) : List (Char × Style) :=
  (if p.1 = '\t' then List.replicate v.tabWidth ' ' else [p.1]).map fun c =>
    (c, (v.shadeAt t p.2).style inParagraph)

def breakCells : List (Char × Style) :=
  if ∃ s ∈ v.selection, s.CoversBreak v.line then [(' ', Shade.selected.style inParagraph)] else []

def pieceCells (pieces : List (Text × Shade)) : List (Char × Style) :=
  pieces.flatMap fun piece => piece.1.map fun c => (c, piece.2.style inParagraph)

/-! ## Drawing a character -/

theorem pieceCells_append (pieces pieces' : List (Text × Shade)) :
    pieceCells inParagraph (pieces ++ pieces') = pieceCells inParagraph pieces ++ pieceCells inParagraph pieces' :=
  List.flatMap_append ..

theorem pieceCells_singleton (piece : Text × Shade) :
    pieceCells inParagraph [piece] = piece.1.map fun c => (c, piece.2.style inParagraph) :=
  List.flatMap_singleton ..

theorem pieceCells_finished (d : Drawing) :
    pieceCells inParagraph d.finished = pieceCells inParagraph (d.done ++ [(d.current, d.shade)]) := by
  unfold Drawing.finished
  split
  next h =>
    rw [List.isEmpty_iff] at h
    rw [pieceCells_append, pieceCells_singleton, h, List.map_nil, List.append_nil]
  next => rfl

/-- A character adds its own cells, in its own shade. -/
theorem pieceCells_draw (d : Drawing) (n : Nat) (c : Char) :
    pieceCells inParagraph (v.draw d n c).finished =
      pieceCells inParagraph d.finished ++ (v.drawn c).map fun x => (x, (v.shade n d.column).style inParagraph) := by
  rw [draw]
  split
  next h =>
    simp only [pieceCells_finished, pieceCells_append, pieceCells_singleton, List.map_append, List.append_assoc, h]
  next =>
    simp only [pieceCells_finished, pieceCells_append, pieceCells_singleton]

theorem column_draw (d : Drawing) (n : Nat) (c : Char) : (v.draw d n c).column = d.column + columnsOf v.tabWidth c := by
  rw [draw]
  split <;> rfl

/-! ## Drawing a line -/

theorem shade_eq_shadeAt (t : Text) (n : Nat) : v.shade n (displayColumn v.tabWidth t n) = v.shadeAt t n := by
  simp only [shade, shadeAt, Option.any_eq_true, Option.mem_def, Selection.contains_iff]

theorem displayColumn_succ {tabWidth : Nat} (h : t[n]? = some c) :
    displayColumn tabWidth t (n + 1) = displayColumn tabWidth t n + columnsOf tabWidth c := by
  rw [displayColumn, List.take_add_one, h, total_append]
  rfl

theorem take_zipIdx_succ (h : t[n]? = some c) : t.zipIdx.take (n + 1) = t.zipIdx.take n ++ [(c, n)] := by
  rw [List.take_add_one, List.getElem?_zipIdx, h, Nat.zero_add]
  rfl

/-- The first `n` characters of a line are drawn. -/
structure Shows (t : Text) (n : Nat) (d : Drawing) : Prop where
  cells : pieceCells inParagraph d.finished = (t.zipIdx.take n).flatMap (v.cellsAt inParagraph t)
  column : d.column = displayColumn v.tabWidth t n

variable {v inParagraph}

theorem Shows.draw (h : v.Shows inParagraph t n d) (hc : t[n]? = some c) :
    v.Shows inParagraph t (n + 1) (v.draw d n c) := by
  refine ⟨?_, ?_⟩
  · rw [pieceCells_draw, h.cells, h.column, shade_eq_shadeAt, take_zipIdx_succ hc, List.flatMap_append,
      List.flatMap_singleton]
    rfl
  · rw [column_draw, h.column, displayColumn_succ hc]

theorem shows_foldl (hn : n ≤ t.length) :
    v.Shows inParagraph t n ((t.zipIdx.take n).foldl (fun d (c, n) => v.draw d n c) {}) := by
  induction n with
  | zero => exact ⟨rfl, rfl⟩
  | succ n ih =>
    have hc : t[n]? = some t[n] := List.getElem?_eq_getElem hn
    rw [take_zipIdx_succ hc, List.foldl_append]
    exact (ih (Nat.le_of_succ_le hn)).draw hc

theorem shows_drawing (t : Text) : v.Shows inParagraph t t.length (v.drawing t) := by
  have h : v.Shows inParagraph t t.length _ := shows_foldl (Nat.le_refl _)
  rwa [List.take_of_length_le (Nat.le_of_eq List.length_zipIdx)] at h

/-- However the last piece is finished, the cells of the line break follow those of the characters. -/
theorem pieceCells_pieces (t : Text) : pieceCells inParagraph (v.pieces t) =
    pieceCells inParagraph (v.drawing t).finished ++ v.breakCells inParagraph := by
  simp only [pieces, breakCells, Option.any_eq_true, Option.mem_def, Selection.containsBreak_iff]
  split
  next => rw [pieceCells_append, pieceCells_singleton]; rfl
  next =>
    rw [List.append_nil]
    split
    next => rw [pieceCells_finished]
    next h =>
      have hcurrent : (v.drawing t).current.isEmpty = true := by
        simp only [Bool.or_eq_true, not_or, Bool.not_eq_true', Bool.not_eq_false] at h
        exact h.1
      rw [Drawing.finished, if_pos hcurrent]

/-! ## Columns -/

variable (v inParagraph) in
theorem total_cellsAt (t : Text) (c : Char) (n : Nat) :
    total (fun cell => columns cell.1) (v.cellsAt inParagraph t (c, n)) = columnsOf v.tabWidth c := by
  have hmap (u : Text) (style : Style) :
      total (fun cell => columns cell.1) (u.map fun x => (x, style)) = total columns u := by
    induction u with
    | nil => rfl
    | cons x u ih => rw [List.map_cons, total, total, ih]
  have hspaces (k : Nat) : total columns (List.replicate k ' ') = k := by
    induction k with
    | zero => rfl
    | succ k ih =>
      have hspace : columns ' ' = 1 := by decide +kernel
      rw [List.replicate_succ, total, ih, hspace, Nat.add_comm]
  rw [cellsAt, hmap, columnsOf]
  split
  next => exact hspaces v.tabWidth
  next => rfl

theorem displayColumn_eq_total (t : Text) (n : Nat) : displayColumn v.tabWidth t n =
    total (fun cell => columns cell.1) ((t.zipIdx.take n).flatMap (v.cellsAt inParagraph t)) := by
  induction n with
  | zero => rfl
  | succ n ih =>
    cases hc : t[n]? with
    | some c =>
      rw [displayColumn_succ hc, take_zipIdx_succ hc, List.flatMap_append, List.flatMap_singleton, total_append, ← ih,
        total_cellsAt]
    | none =>
      -- past the end of the line nothing is added
      have ht : t.take (n + 1) = t.take n := by rw [List.take_add_one, hc, Option.toList_none, List.append_nil]
      have hcells : t.zipIdx.take (n + 1) = t.zipIdx.take n := by
        rw [List.take_add_one, List.getElem?_zipIdx, hc, Option.map_none, Option.toList_none, List.append_nil]
      rw [displayColumn, ht, hcells]
      exact ih

/-- The cells of a line are those of its characters in their order, each in the shade that its place asks for, and one
more if the line break is selected.  A character stands at the column that the cells of those before it reach. -/
theorem cells_spans (v : LineView) (inParagraph : Bool) (t : Text) :
    cells (v.spans inParagraph t) =
      t.zipIdx.flatMap (v.cellsAt inParagraph t) ++ v.breakCells inParagraph ∧
    ∀ n, displayColumn v.tabWidth t n =
      total (fun cell => columns cell.1) ((t.zipIdx.take n).flatMap (v.cellsAt inParagraph t)) := by
  refine ⟨?_, displayColumn_eq_total t⟩
  calc cells (v.spans inParagraph t)
      = pieceCells inParagraph (v.pieces t) := List.flatMap_map ..
    _ = pieceCells inParagraph (v.drawing t).finished ++ v.breakCells inParagraph := pieceCells_pieces t
    _ = t.zipIdx.flatMap (v.cellsAt inParagraph t) ++ v.breakCells inParagraph := by
      rw [(shows_drawing t).cells, List.take_of_length_le (Nat.le_of_eq List.length_zipIdx)]

/-- A tab, a character past the wrap column, and one that is selected with the break after it. -/
example : (LineView.mk 2 (some ⟨⟨2, 2⟩, ⟨3, 0⟩⟩) 4 4).pieces "\tab".toList =
    [("    ".toList, .normal), (['a'], .overflow), (['b'], .selected), ([' '], .selected)] := by
  decide +kernel

end LineView

end Reflow
