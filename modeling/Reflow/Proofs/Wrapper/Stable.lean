import Reflow.Proofs.Break.Again
import Reflow.Proofs.Wrapper.Expanded
import Reflow.Proofs.Wrapper.Layout
import Mathlib.Data.List.Forall2

/-!
# Wrapping a second time

Of a text with words on every line wrapping makes one paragraph.  Wrapping that again changes nothing
if the lines read back: a line taken apart gives the indent and the piece that it was put together
from (`ReadsBack`).  A piece that starts with what looks like a leader or a tag does not read back,
and then a second run takes it for a part of the indent.  `Wrapper.readsBack_iff` says that this is
all that can go wrong.
-/

namespace Reflow

theorem eq_of_forall₂_isInfix {rs ps : List Text} (h : List.Forall₂ (fun r p => r <:+: p) rs ps)
    (hle : ps.flatten.length ≤ rs.flatten.length) : rs = ps := by
  have hlen : ∀ {rs ps : List Text}, List.Forall₂ (fun r p => r <:+: p) rs ps →
      rs.flatten.length ≤ ps.flatten.length := by
    intro rs ps h
    induction h with
    | nil => exact Nat.le_refl _
    | cons hr _ ih =>
      have := hr.length_le
      simp only [List.flatten_cons, List.length_append]
      omega
  induction h with
  | nil => rfl
  | cons hr hrs ih =>
    have h₁ := hr.length_le
    have h₂ := hlen hrs
    simp only [List.flatten_cons, List.length_append] at hle
    rw [hr.eq_of_length (by omega), ih (by omega)]

namespace Wrapper

variable {w : Wrapper} {t u : Text}

/-- The lines that a text is wrapped to, taken apart, give the indent and the pieces that they were
put together from, none of which is empty. -/
structure ReadsBack (w : Wrapper) (t : Text) : Prop where
  indent : ∀ line ∈ (w.breakLines t).head?, (w.markers.splitLine line).indent = (w.indents t).first
  /-- The words of all lines. -/
  rests : (w.breakLines t).map (fun line => (w.markers.splitLine line).rest) = w.pieces t
  nonempty : [] ∉ w.pieces t

/-- Every line of the text has words, spelled out tabs counted among them. -/
def HoldsWords (t : Text) : Prop :=
  ∀ line ∈ Text.closedLines t, ∃ c ∈ (Markers.code.splitLine line).rest, isBlank c = false

theorem HoldsWords.worded (h : HoldsWords t) : Worded t := by
  intro line hline hindent
  obtain ⟨c, hc, -⟩ := h line hline
  rw [Markers.rest_of_indent hindent] at hc
  exact List.not_mem_nil hc

theorem holdsWords_expandTabs (htab : 0 < w.options.tabWidth)
    (h : ∀ line ∈ Text.closedLines t, Markers.code.isBare line = false) : HoldsWords (w.expandTabs t) := by
  intro line hline
  rw [closedLines_expandTabs htab] at hline
  obtain ⟨raw, hraw, rfl⟩ := List.mem_map.mp hline
  exact exists_word_of_expandTabs htab (h raw hraw)

theorem IsCode.indent_later (hw : w.IsCode) (h : Indent (w.indents t).first) : Indent (w.indents t).later := by
  rw [hw.first_eq] at h
  rw [hw.later_eq, continued]
  split
  · refine ⟨List.takeWhile isBlank (w.markers.splitLine t).indent ++ [' '], ['*', ' '], by simp, ?_,
      ['*'], [' '], [], rfl, .inr .star, rfl, .inl rfl⟩
    rw [List.all_append, Bool.and_eq_true, List.all_eq_true]
    refine ⟨fun c hc => isFiller_of_isBlank ?_, rfl⟩
    exact List.all_eq_true.mp List.all_takeWhile c hc
  · exact h

theorem pieces_eq_of_breakLines_eq (hindents : w.indents u = w.indents t)
    (h : w.breakLines u = w.breakLines t) : w.pieces u = w.pieces t := by
  cases hu : w.pieces u with
  | nil =>
    cases ht : w.pieces t with
    | nil => rfl
    | cons piece pieces =>
      rw [breakLines, hu, breakLines_of_pieces ht] at h
      cases h
  | cons piece pieces =>
    cases ht : w.pieces t with
    | nil =>
      rw [breakLines_of_pieces hu, breakLines, ht] at h
      cases h
    | cons piece' pieces' =>
      rw [breakLines_of_pieces hu, breakLines_of_pieces ht, hindents, List.cons.injEq] at h
      rw [List.append_cancel_left h.1,
        List.map_injective_iff.mpr (fun _ _ => List.append_cancel_left) h.2]

/-! ## The first run -/

theorem HoldsWords.ends (h : HoldsWords t) : ∀ rest ∈ (Text.fields isBreak t).map
      (fun line => (Markers.code.splitLine line).rest), rest ≠ [] ∧ ∀ c ∈ rest.getLast?, c ≠ ' ' := by
  intro rest hrest
  obtain ⟨line, hline, rfl⟩ := List.mem_map.mp hrest
  obtain ⟨c, hc, -⟩ := h line (Text.mem_closedLines_of_mem_fields hline)
  refine ⟨List.ne_nil_of_mem hc, ?_⟩
  rintro d hd rfl
  exact absurd (Markers.getLast?_rest _ hd) (by decide)

section

variable (hw : w.IsCode) (h : HoldsWords t) (ht : t ≠ [])

include hw h ht

theorem HoldsWords.body_ends : w.body t ≠ [] ∧ ∀ c ∈ (w.body t).getLast?, c ≠ ' ' := by
  obtain ⟨line, hline⟩ := Text.exists_mem_closedLines ht
  obtain ⟨c, hc, -⟩ := h line hline
  have hmem : c ∈ w.unwrap t :=
    mem_unwrap_of_mem_rest (Text.mem_split_of_mem_closedLines hline) (by rwa [hw.markers])
  rw [unwrap, hw.markers] at hmem
  rw [hw.body_eq, unwrap, hw.markers]
  refine Text.getLast?_join (fun hnil => ?_) h.ends
  rw [hnil] at hmem
  exact List.not_mem_nil hmem

theorem HoldsWords.breaks_pieces : Break.Breaks (w.body t) (w.pieces t) := by
  obtain ⟨ls, hls, heq⟩ := w.exists_breaks t
  obtain ⟨hne, hend⟩ := h.body_ends hw ht
  rwa [heq, hls.dropTrailingEmpty_eq_self hne fun hlast => hend _ hlast rfl]

theorem HoldsWords.properLines : ProperLines (w.breakLines t) :=
  hw.properLines_breakLines (h.breaks_pieces hw ht).ne_nil

theorem HoldsWords.wrapExpanded_eq : w.wrapExpanded t = closeLike t (Text.ofLines (w.breakLines t)) :=
  wrapExpanded_of_worded hw.markers h.worded ht

theorem HoldsWords.hasLines : HasLines (w.wrapExpanded t) (w.breakLines t) := by
  rw [h.wrapExpanded_eq hw ht]
  exact hasLines_closeLike _ _

/-! ## The second run -/

theorem HoldsWords.breakLines_eq (hread : w.ReadsBack t) (hu : HasLines u (w.breakLines t)) :
    Worded u ∧ (w.markers.splitLine u).indent = (w.indents t).first ∧ w.breakLines u = w.breakLines t := by
  obtain ⟨hindent, hrests, hnonempty⟩ := hread
  have hproper := h.properLines hw ht
  have hlines : ∀ line ∈ w.breakLines t, ¬Indent line := by
    intro line hline hline'
    refine hnonempty ?_
    rw [← hrests, ← Markers.rest_of_indent hline', ← hw.markers]
    exact List.mem_map_of_mem hline
  have hne : [] ∉ w.breakLines t := fun hmem => hlines [] hmem Indent.nil
  obtain ⟨first, others, hpieces⟩ := List.exists_cons_of_ne_nil (h.breaks_pieces hw ht).ne_nil
  have hcons := breakLines_of_pieces hpieces
  have hindent' : (w.markers.splitLine u).indent = (w.indents t).first := by
    rw [hcons] at hu hindent hlines
    rw [← hindent _ rfl, hw.markers]
    exact Markers.indent_splitLine_of_hasLines hu (hlines _ List.mem_cons_self)
  have hsame : (w.markers.splitLine u).indent = (w.markers.splitLine t).indent := by
    rw [hindent', hw.first_eq]
  have hbody : w.body u = Text.join ' ' (w.pieces t) := by
    rw [hw.body_eq, unwrap_of_hasLines hu hproper hne, hrests]
  have hspace : ∀ piece ∈ w.pieces t, piece.head? ≠ some ' ' := by
    intro piece hpiece hhead
    rw [← hrests, hw.markers] at hpiece
    obtain ⟨line, -, rfl⟩ := List.mem_map.mp hpiece
    exact absurd (Markers.head?_rest _ hhead) (by decide)
  have hpieces' : w.pieces u = w.pieces t := by
    obtain ⟨hbne, hend⟩ := h.body_ends hw ht
    have hend' : (w.body t).getLast? ≠ some ' ' := fun hlast => hend _ hlast rfl
    rw [pieces, hbody, hw.room_congr hsame]
    unfold pieces at hspace ⊢
    split
    · rw [Break.join_ragged hbne hend']
    · rename_i hragged
      rw [if_neg hragged] at hspace
      exact Break.greedy_join hbne hend' hspace
  refine ⟨?_, hindent', ?_⟩
  · intro line hline
    rw [hu.closedLines_eq hproper] at hline
    exact hlines line hline
  · rw [breakLines, breakLines, hpieces', hw.indents_eq hsame]

theorem breakLines_eq_of_stable (hu : HasLines u (w.breakLines t)) (hstable : w.wrapExpanded u = u)
    (hworded : Worded u) : w.breakLines u = w.breakLines t := by
  have hproper := h.properLines hw ht
  have hune : u ≠ [] := by
    rintro rfl
    exact hproper.ne_nil (hu.closedLines_eq hproper).symm
  have hu' : HasLines u (w.breakLines u) := by
    have := hasLines_closeLike u (w.breakLines u)
    rwa [← wrapExpanded_of_worded hw.markers hworded hune, hstable] at this
  refine hu'.unique hu (hw.properLines_breakLines fun hnil => ?_) hproper
  rw [breakLines, hnil] at hu'
  rcases hu' with hu' | hu'
  · exact hune hu'
  · exact hworded [] (by rw [hu']; exact List.mem_cons_self) Indent.nil

/-- The lines of a text that is wrapped to itself read back, if they have words and its indent. -/
theorem HoldsWords.readsBack (hu : HasLines u (w.breakLines t)) (hstable : w.wrapExpanded u = u)
    (hworded : Worded u) (hindent : (w.markers.splitLine u).indent = (w.indents t).first) :
    w.ReadsBack t := by
  have hproper := h.properLines hw ht
  have hlines : ∀ line ∈ w.breakLines t, ¬Indent line := by
    rw [← hu.closedLines_eq hproper]
    exact hworded
  have hsame : w.indents u = w.indents t := hw.indents_eq (by rw [hindent, hw.first_eq])
  have hpieces : w.pieces u = w.pieces t :=
    pieces_eq_of_breakLines_eq hsame (breakLines_eq_of_stable hw h ht hu hstable hworded)
  obtain ⟨first, others, hcons⟩ := List.exists_cons_of_ne_nil (h.breaks_pieces hw ht).ne_nil
  have hline := breakLines_of_pieces hcons
  have hfirst : (w.markers.splitLine ((w.indents t).first ++ first)).indent = (w.indents t).first := by
    rw [hline] at hu hlines
    have := Markers.indent_splitLine_of_hasLines hu (hlines _ List.mem_cons_self)
    rw [hw.markers] at hindent ⊢
    rw [← this, hindent]
  have hunbroken := hproper.unbroken ((w.indents t).first ++ first) (by rw [hline]; exact List.mem_cons_self)
  have hindentFirst : Indent (w.indents t).first := by
    rw [← hfirst, hw.markers]
    exact Markers.indent_splitLine hunbroken
  have hindentLater : Indent (w.indents t).later := hw.indent_later hindentFirst
  -- what is read back is in the pieces, and nothing of them is lost
  have hinfix : List.Forall₂ (fun r p => r <:+: p)
      ((w.breakLines t).map fun line => (w.markers.splitLine line).rest) (w.pieces t) := by
    rw [hline, hcons, hw.markers, List.map_cons]
    exact .cons (Markers.rest_isInfix hindentFirst) (Markers.forall₂_rest hindentLater others)
  have hlength : (w.pieces t).flatten.length ≤
      ((w.breakLines t).map fun line => (w.markers.splitLine line).rest).flatten.length := by
    have hne : [] ∉ w.breakLines t := fun hmem => hlines [] hmem Indent.nil
    have hbody : w.body u = Text.join ' '
        ((w.breakLines t).map fun line => (w.markers.splitLine line).rest) := by
      rw [hw.body_eq, unwrap_of_hasLines hu hproper hne]
    obtain ⟨ls, hls, heq⟩ := w.exists_breaks u
    have h₁ := hls.length_le
    have h₂ := Text.length_dropTrailingEmpty_le ls
    have h₃ := Text.flatten_dropTrailingEmpty ls
    have hne' : ((w.breakLines t).map fun line => (w.markers.splitLine line).rest) ≠ [] := by
      simpa using hproper.ne_nil
    have h₄ := Text.length_join (c := ' ') hne'
    have h₅ := hinfix.length_eq
    rw [← heq, hpieces] at h₂ h₃
    rw [hbody, ← h₃] at h₁
    omega
  have hrests := eq_of_forall₂_isInfix hinfix hlength
  refine ⟨?_, hrests, fun hmem => ?_⟩
  · rw [hline]
    rintro _ ⟨⟩
    exact hfirst
  · rw [hcons] at hmem
    rcases List.mem_cons.mp hmem with rfl | hmem
    · refine hlines _ (by rw [hline]; exact List.mem_cons_self) ?_
      rwa [List.append_nil]
    · refine hlines ((w.indents t).later ++ []) ?_ (by rwa [List.append_nil])
      rw [hline]
      exact List.mem_cons_of_mem _ (List.mem_map_of_mem hmem)

end

/-- The lines of a wrapped text read back just if wrapping it again changes nothing, provided that every
line of it has words and that it has the indent of the text. -/
theorem readsBack_iff (hw : w.IsCode) (htab : 0 < w.options.tabWidth)
    (hwords : ∀ line ∈ Text.closedLines (LineEnding.normalize t), w.markers.isBare line = false) :
    w.ReadsBack (w.expandTabs (LineEnding.normalize t)) ↔
      w.wrap (w.wrap t) = w.wrap t ∧ Worded (w.expandedWrap t) ∧
        (w.markers.splitLine (w.expandedWrap t)).indent =
          (w.markers.splitLine (w.expandTabs (LineEnding.normalize t))).indent := by
  have h : HoldsWords (w.expandTabs (LineEnding.normalize t)) := by
    rw [hw.markers] at hwords
    exact holdsWords_expandTabs htab hwords
  rcases eq_or_ne (w.expandTabs (LineEnding.normalize t)) [] with hnil | hne
  · have hlines : w.breakLines [] = [] := breakLines_of_breaks (by simp)
    have hpieces : w.pieces [] = [] := pieces_of_body_nil (body_of_breaks (by simp))
    rw [wrap_wrap_eq_iff (by rw [expandedWrap, hnil, wrapExpanded_nil]; simp), expandedWrap, hnil,
      wrapExpanded_nil]
    refine ⟨fun _ => ⟨wrapExpanded_nil w, by simp [Worded, Text.closedLines], rfl⟩, fun _ => ⟨?_, ?_, ?_⟩⟩
    · rw [hlines]
      simp
    · rw [hlines, hpieces]
      rfl
    · rw [hpieces]
      exact List.not_mem_nil
  have hu : HasLines (w.expandedWrap t) (w.breakLines (w.expandTabs (LineEnding.normalize t))) :=
    h.hasLines hw hne
  have hcr := hu.not_mem_cr (h.properLines hw hne)
  rw [wrap_wrap_eq_iff hcr, ← hw.first_eq (w.expandTabs (LineEnding.normalize t))]
  constructor
  · intro hread
    obtain ⟨hworded, hindent, hlines⟩ := h.breakLines_eq hw hne hread hu
    have hproper := h.properLines hw hne
    have hune : w.expandedWrap t ≠ [] := by
      intro hnil
      rw [hnil] at hu
      exact hproper.ne_nil (hu.closedLines_eq hproper).symm
    refine ⟨?_, hworded, hindent⟩
    rw [wrapExpanded_of_worded hw.markers hworded hune, hlines]
    exact hu.closeLike_eq hproper
  · rintro ⟨hstable, hworded, hindent⟩
    exact h.readsBack hw hne hu hstable hworded hindent

/-- A second run takes a word at the start of a line for a leader. -/
theorem wrap_wrap_ne :
    let w : Wrapper := ⟨{ width := 5 }, .code⟩
    w.wrap (w.wrap "aaaa # bbb".toList) ≠ w.wrap "aaaa # bbb".toList := by
  intro w hstable
  have hbody : w.body "aaaa # bbb".toList = "aaaa # bbb".toList := by decide
  have hcut : Break.cutLine? 5 "aaaa # bbb".toList = some ("aaaa".toList, "# bbb".toList) := by decide
  have hpieces : w.pieces "aaaa # bbb".toList = ["aaaa".toList, "# bbb".toList] := by
    have hroom : max (w.room "aaaa # bbb".toList) 1 = 5 := by decide
    rw [pieces, if_neg (by decide), hbody, Break.greedy, hroom, Break.fill_cut (by decide) (by decide) hcut,
      Break.fill_of_le (by decide)]
    rfl
  have hlines : w.breakLines "aaaa # bbb".toList = ["aaaa".toList, "# bbb".toList] := by
    rw [breakLines_of_pieces hpieces]
    decide
  have hwrap : w.expandedWrap "aaaa # bbb".toList = "aaaa\n# bbb".toList := by
    have hexpand : w.expandTabs (LineEnding.normalize "aaaa # bbb".toList) = "aaaa # bbb".toList := by decide
    rw [expandedWrap, hexpand, wrapExpanded_of_worded rfl (worded_of_not_isBare (by decide)) (by decide),
      hlines]
    decide
  have hread : w.ReadsBack "aaaa # bbb".toList := by
    have hw : w.IsCode := (isCode_of_ofOptions? (o := { width := 5 }) rfl rfl rfl).1
    refine (readsBack_iff hw (by decide) (by decide)).mpr ⟨hstable, ?_, ?_⟩
    · rw [hwrap]
      exact worded_of_not_isBare (by decide)
    · rw [hwrap]
      decide
  have hrests := hread.rests
  rw [hlines, hpieces] at hrests
  exact absurd hrests (by decide)

end Wrapper

end Reflow
