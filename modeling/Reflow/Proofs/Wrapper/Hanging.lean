import Reflow.Proofs.Comment.BlankLines
import Reflow.Proofs.Wrapper.ListItem

/-!
# Hanging lines

The lines of a list item hang under its text, unless exactly one blank line comes before the item
(`Wrapper.hangs_iff`).  The line feed after a single blank line is left in front of the item, and since the list symbol
takes in the white space around it, it counts as a column.  Several blank lines are kept apart from the item.
-/

namespace Reflow

/-- Lines of white space. -/
def BlankLines (ls : List Text) : Prop :=
  ∀ line ∈ ls, Blank line ∧ ∀ c ∈ line, isBreak c = false

/-- The text starts with a word, or with a tab that was put back for the marks that a word starts with. -/
def StartsWord (t : Text) : Prop :=
  ∃ c rest, t = c :: rest ∧ (isBlank c = false ∨ c = '\t')

/-- So many spaces come before a word. -/
def HangsAt (column : Nat) (line : Text) : Prop :=
  ∃ word, line = List.replicate column ' ' ++ word ∧ StartsWord word

variable {t q b s line : Text} {blanks ls rows : List Text} {i : ListItem} {m n : Nat}

theorem HangsAt.takeWhile_eq (h : HangsAt n line) : line.takeWhile (· = ' ') = List.replicate n ' ' := by
  obtain ⟨_, rfl, c, rest, rfl, hc⟩ := h
  have hspace : c ≠ ' ' := by
    rintro rfl
    rcases hc with hc | hc <;> cases hc
  rw [List.takeWhile_append_of_pos fun d hd => by simp [List.eq_of_mem_replicate hd],
    List.takeWhile_cons_of_neg (by simpa using hspace), List.append_nil]

theorem HangsAt.unique (h : HangsAt m line) (h' : HangsAt n line) : m = n := by
  have heq := h.takeWhile_eq.symm.trans h'.takeWhile_eq
  simpa using congrArg List.length heq

theorem forall_hangsAt_iff (h : ∀ line ∈ ls, HangsAt m line) : (∀ line ∈ ls, HangsAt n line) ↔ ls = [] ∨ m = n := by
  constructor
  · intro h'
    rcases List.eq_nil_or_concat' ls with rfl | ⟨_, line, rfl⟩
    · exact .inl rfl
    · exact .inr ((h line (by simp)).unique (h' line (by simp)))
  · rintro (rfl | rfl)
    · simp
    · exact h

/-! ## Lines of a text in two parts -/

theorem HasLines.exists_append (h : HasLines t (blanks ++ ls)) (hne : blanks ≠ []) (hne' : ls ≠ []) :
    ∃ q, t = Text.ofLines blanks ++ '\n' :: q ∧ HasLines q ls := by
  rw [HasLines, Text.ofLines, Text.join_append hne hne'] at h
  rcases h with rfl | rfl
  · exact ⟨_, rfl, .inl rfl⟩
  · exact ⟨Text.ofLines ls ++ ['\n'], by simp [Text.ofLines], .inr rfl⟩

theorem ProperLines.of_append (h : ProperLines (blanks ++ ls)) (hne : ls ≠ []) : ProperLines ls := by
  refine ⟨hne, fun line hline => h.unbroken line (List.mem_append_right _ hline), ?_⟩
  have hlast := h.last
  rwa [List.getLast?_append_of_ne_nil _ hne] at hlast

namespace Wrapper

variable {w : Wrapper}

theorem terminated_append_ofLines (hne : ls ≠ []) :
    terminated blanks ++ Text.ofLines ls = Text.ofLines (blanks ++ ls) := by
  rcases eq_or_ne blanks [] with rfl | hblanks
  · rfl
  · rw [terminated_eq hblanks, Text.ofLines, Text.ofLines, Text.ofLines, Text.join_append hblanks hne]
    simp

theorem startsWord_collapseFrom {tabWidth : Nat} (hn : n ≠ 0) (t : Text) : StartsWord (collapseFrom tabWidth n t) := by
  obtain ⟨k, rfl⟩ := Nat.exists_eq_succ_of_ne_zero hn
  induction t generalizing k with
  | nil => exact ⟨tabMark, _, rfl, .inl (by decide)⟩
  | cons c t ih =>
    rw [collapseFrom]
    split
    · split
      · exact ⟨'\t', _, rfl, .inr rfl⟩
      · exact ih (k + 1) (by omega)
    · exact ⟨tabMark, _, rfl, .inl (by decide)⟩

theorem startsWord_collapseTabs (h : Phrase t) : StartsWord (w.collapseTabs t) := by
  obtain ⟨c, rest, rfl, hc⟩ := h.head
  rcases eq_or_ne c tabMark with rfl | hne
  · rw [collapseTabs, collapseFrom, if_pos rfl]
    split
    · exact ⟨'\t', _, rfl, .inr rfl⟩
    · exact startsWord_collapseFrom (by decide) rest
  · exact ⟨c, w.collapseTabs rest, collapseTabs_append (t := []) hne, .inl hc⟩

namespace IsProse

variable (hw : w.IsProse)
include hw

theorem blank_wrapParagraph (hb : Blank b) (htab : '\t' ∉ b) : Blank (w.wrapParagraph b) := by
  have hother : ∀ c ∈ b, isBlank c = true := List.all_eq_true.mp hb
  have hunmarked : Unmarked b := by
    refine fun c hc => ⟨fun h => htab (h ▸ hc), ?_, ?_, ?_, fun _ => hother c hc⟩
    all_goals
      rintro rfl
      cases hother _ hc
  rw [← visible_eq_nil_iff, hw.visible_wrapParagraph hunmarked, List.flatMap_eq_nil_iff]
  intro gap hgap
  rw [spared]
  split
  · rfl
  · refine visible_of_blank (List.all_eq_true.mpr fun c hc => hother c ?_)
    rw [← Pattern.uncut_sections w.markers.bareLine b]
    exact Pattern.mem_uncut_of_mem_gaps hgap hc

theorem wrapParagraph_of_words (hq : ∀ line ∈ Text.closedLines q, ¬IndentOf (fun l => l = ['/', '/']) line) :
    w.wrapParagraph q = Text.ofLines (w.breakLines q) := by
  apply wrapParagraph_of_barren
  · rw [hw.markers]
    exact Pattern.isLeader_proseLeaders.longest_bareLine
  · rw [hw.markers]
    exact Pattern.leads_proseLeaders.barren_bareLine hq none

/-- A blank line in front of a paragraph with words is written, if it holds something, and the paragraph goes on with
the line feed. -/
theorem wrapParagraph_blank_append (hb : Blank b) (hbreak : ∀ c ∈ b, isBreak c = false) (hne : q ≠ [])
    (hhead : ∀ d ∈ q.head?, isBreak d = false) (hlast : ∀ c ∈ q.getLast?, c = '\n' ∨ isBlank c = false)
    (hq : ∀ line ∈ Text.closedLines q, ¬IndentOf (fun l => l = ['/', '/']) line)
    (hwritten : w.breakLines ('\n' :: q) ≠ []) :
    w.wrapParagraph (b ++ '\n' :: q) =
      terminated (if b = [] then [] else [b]) ++ Text.ofLines (w.breakLines ('\n' :: q)) := by
  rcases eq_or_ne b [] with rfl | hbne
  · refine wrapParagraph_of_barren ?_ ?_
    · rw [hw.markers]
      exact Pattern.isLeader_proseLeaders.longest_bareLine
    · rw [hw.markers]
      exact Pattern.leads_proseLeaders.barren_bareLine_cons hne hhead hq rfl none
  · have hstarts : b.isPrefixOf (b ++ '\n' :: q) = true := List.isPrefixOf_iff_prefix.mpr ⟨_, rfl⟩
    have hends : b.isSuffixOf (b ++ '\n' :: q) = false := by
      refine Bool.eq_false_iff.mpr fun hend => ?_
      obtain ⟨x, hx⟩ := List.isSuffixOf_iff_suffix.mp hend
      have hlast' : q.getLast? = b.getLast? := by
        have h := congrArg List.getLast? hx
        rwa [List.getLast?_append_of_ne_nil _ hbne, List.getLast?_append_of_ne_nil _ (List.cons_ne_nil _ _),
          List.getLast?_cons_of_ne_nil hne, eq_comm] at h
      obtain ⟨c, hc⟩ : ∃ c, b.getLast? = some c := ⟨_, List.getLast?_eq_some_getLast hbne⟩
      rcases hlast c (hlast'.trans hc) with rfl | hblank
      · cases hbreak _ (List.mem_of_getLast? hc)
      · rw [isBlank_of_mem hb (List.mem_of_getLast? hc)] at hblank
        cases hblank
    rw [wrapParagraph_eq_sections, hw.markers, Markers.prose,
      Pattern.leads_proseLeaders.sections_bareLine_append hne hhead hq hb hbreak hbne, w.wrapBetween_cons hbne]
    simp only [hstarts, hends, if_true, Bool.false_eq_true, if_false, List.append_nil, wrapBetween_last,
      w.breakLines_of_breaks (t := []) (by simp), if_neg hbne]
    rw [terminated_eq hwritten, ← List.append_assoc, dropFinalBreak_append]
    simp [terminated]

end IsProse

namespace IsItem

variable (hw : w.IsProse) (hq : IsItem w i rows q)
include hw hq

theorem exists_wrapExpanded :
    ∃ piece pieces, (∀ p ∈ piece :: pieces, Phrase p) ∧ w.wrapExpanded q =
      closeLike q (Text.ofLines ((i.symbol ++ piece) :: pieces.map fun p => List.replicate i.column ' ' ++ p)) := by
  have hindent := hq.not_indent hw
  obtain ⟨piece, pieces, hpieces, hbreakLines⟩ := hw.exists_breakLines_eq [] (by simp) hq
  refine ⟨piece, pieces, hpieces, ?_⟩
  have hcuts := Pattern.leads_proseLeaders.cuts_separator fun pre line post hlines _ hpost =>
    hindent line (Text.mem_closedLines_of_next hlines hpost)
  rw [wrapExpanded_eq, hw.markers, Markers.prose, hcuts, wrapAround_nil, hw.wrapParagraph_of_words hindent]
  simpa using congrArg (fun ls => closeLike q (Text.ofLines ls)) hbreakLines

theorem exists_wrapExpanded_single (hb : Blank b) (hbreak : ∀ c ∈ b, isBreak c = false) :
    ∃ before piece pieces, BlankLines before ∧ (∀ p ∈ piece :: pieces, Phrase p) ∧ w.wrapExpanded (b ++ '\n' :: q) =
      closeLike (b ++ '\n' :: q) (Text.ofLines (before ++ (i.symbol ++ piece) ::
        pieces.map fun p => List.replicate (1 + i.column) ' ' ++ p)) := by
  have hindent := hq.not_indent hw
  obtain ⟨c, rest, hcons, hc⟩ := hq.head
  obtain ⟨piece, pieces, hpieces, hbreakLines⟩ := hw.exists_breakLines_eq ['\n'] (List.forall_mem_singleton.mpr rfl) hq
  rw [List.singleton_append, List.length_singleton] at hbreakLines
  refine ⟨(if b = [] then [] else [b]) ++ [[]], piece, pieces, ?_, hpieces, ?_⟩
  · intro line hline
    rcases List.mem_append.mp hline with hline | hline
    · split at hline
      · exact absurd hline List.not_mem_nil
      · rw [List.mem_singleton.mp hline]
        exact ⟨hb, hbreak⟩
    · rw [List.mem_singleton.mp hline]
      exact ⟨rfl, by simp⟩
  · rw [wrapExpanded_eq, hw.markers, Markers.prose, Pattern.leads_proseLeaders.cuts_separator_single hindent hbreak,
      wrapAround_nil, hw.wrapParagraph_blank_append hb hbreak (by simp [hcons]) (by simp [hcons, hc]) hq.last hindent
        (by simp [hbreakLines]), hbreakLines, ← terminated_append_ofLines (List.cons_ne_nil _ _), Text.ofLines,
      Text.join_append_cons]
    simp [terminated, Text.ofLines]

theorem exists_wrapExpanded_several (hb : Blank b) (hbreak : ∀ c ∈ b, isBreak c = false) (hs : Blank s)
    (htab : '\t' ∉ b) (hcr : '\r' ∉ s) :
    ∃ before piece pieces, BlankLines before ∧ (∀ p ∈ piece :: pieces, Phrase p) ∧
      w.wrapExpanded (b ++ '\n' :: (s ++ '\n' :: q)) =
        closeLike (b ++ '\n' :: (s ++ '\n' :: q)) (Text.ofLines (before ++ (i.symbol ++ piece) ::
          pieces.map fun p => List.replicate i.column ' ' ++ p)) := by
  have hindent := hq.not_indent hw
  obtain ⟨piece, pieces, hpieces, hbreakLines⟩ := hw.exists_breakLines_eq [] (by simp) hq
  have hterminated :
      terminated (Text.lines (w.wrapParagraph b ++ '\n' :: s)) = w.wrapParagraph b ++ '\n' :: s ++ ['\n'] := by
    rw [terminated_eq Text.lines_ne_nil, Text.ofLines_lines]
  have hblank : Blank (w.wrapParagraph b ++ '\n' :: s) := by
    rw [blank_append, blank_cons]
    exact ⟨hw.blank_wrapParagraph hb htab, rfl, hs⟩
  refine ⟨Text.lines (w.wrapParagraph b ++ '\n' :: s), piece, pieces,
    fun line hline => ⟨?_, fun c hc => ?_⟩, hpieces, ?_⟩
  · exact List.all_eq_true.mpr fun c hc => isBlank_of_mem hblank (Text.mem_of_mem_split hline c hc)
  · have hcr' : '\r' ∉ w.wrapParagraph b ++ '\n' :: s := by
      rw [List.mem_append, List.mem_cons, not_or, not_or]
      refine ⟨fun hmem => ?_, by decide, hcr⟩
      rcases mem_wrapParagraph hmem with hmem | hmade
      · cases hbreak _ hmem
      · cases hmade
    rw [← Text.split_isBreak_eq_lines hcr'] at hline
    exact Text.not_sep_of_mem_split hline c hc
  · rw [wrapExpanded_eq, hw.markers, Markers.prose, Pattern.leads_proseLeaders.cuts_separator_append hindent hbreak hs,
      wrapAround, wrapAround_nil, hw.wrapParagraph_of_words hindent, ← terminated_append_ofLines (List.cons_ne_nil _ _),
      hterminated]
    rw [List.nil_append, List.length_nil, Nat.zero_add] at hbreakLines
    simp [hbreakLines]

end IsItem

/-- What wrapping writes for a list item after blank lines: other blank lines and the lines of the item, which hang one
column too far if a single blank line comes before them. -/
theorem IsProse.exists_wrapExpanded (hw : w.IsProse) (htab : '\t' ∉ t) (hblanks : ∀ line ∈ blanks, Blank line)
    (hrows : ∀ row ∈ rows, Phrase row ∧ w.markers.isBare row = false) (hlines : HasLines t (blanks ++ i.line :: rows))
    (hproper : ProperLines (blanks ++ i.line :: rows)) :
    ∃ before piece pieces, BlankLines before ∧ (∀ p ∈ piece :: pieces, Phrase p) ∧
      w.wrapExpanded t = closeLike t (Text.ofLines (before ++ (i.symbol ++ piece) ::
        pieces.map fun p => List.replicate (if blanks.length = 1 then 1 + i.column else i.column) ' ' ++ p)) := by
  have hitem : ∀ {q}, HasLines q (i.line :: rows) → IsItem w i rows q :=
    fun hq => ⟨hq, hproper.of_append (List.cons_ne_nil _ _), hrows⟩
  cases blanks with
  | nil =>
    obtain ⟨piece, pieces, hpieces, hwrap⟩ := (hitem hlines).exists_wrapExpanded hw
    exact ⟨[], piece, pieces, by simp [BlankLines], hpieces, hwrap⟩
  | cons b bs =>
    obtain ⟨q, rfl, hq⟩ := hlines.exists_append (List.cons_ne_nil _ _) (List.cons_ne_nil _ _)
    obtain ⟨hb, hbs⟩ := List.forall_mem_cons.mp hblanks
    have hbreak : ∀ c ∈ b, isBreak c = false := hproper.unbroken b (by simp)
    rcases eq_or_ne bs [] with rfl | hne
    · rw [Text.ofLines, Text.join_singleton]
      exact (hitem hq).exists_wrapExpanded_single hw hb hbreak
    · have hbtab : '\t' ∉ b := fun hmem => htab (by rw [Text.ofLines, Text.join_cons hne]; simp [hmem])
      have hlength : (b :: bs).length ≠ 1 := by simpa using hne
      rw [if_neg hlength, Text.ofLines, Text.join_cons hne, List.append_assoc, List.cons_append]
      refine (hitem hq).exists_wrapExpanded_several hw hb hbreak (blank_ofLines_iff.mpr hbs) hbtab fun hmem => ?_
      rcases Text.mem_join hmem with heq | ⟨line, hline, hmem⟩
      · cases heq
      · cases hproper.unbroken line (by simp [hline]) _ hmem

theorem properLines_item {before pieces : List Text} {piece : Text} (hbefore : BlankLines before)
    (hpieces : ∀ p ∈ piece :: pieces, Phrase p) :
    ProperLines (before ++ (i.symbol ++ piece) :: pieces.map fun p => List.replicate n ' ' ++ p) := by
  have hspaces : ∀ {k : Nat}, ∀ c ∈ List.replicate k ' ', isBreak c = false :=
    fun c hc => List.eq_of_mem_replicate hc ▸ rfl
  have hsymbol : ∀ c ∈ i.symbol, isBreak c = false := by
    intro c hc
    rcases ListItem.mem_symbol_cases hc with rfl | hc
    · rfl
    · exact not_isBreak_of_not_isBlank (i.isBullet.not_isBlank c hc)
  have hunder : ∀ {x p : Text}, (∀ c ∈ x, isBreak c = false) → Phrase p → ∀ c ∈ x ++ p, isBreak c = false :=
    fun hx hp c hc => (List.mem_append.mp hc).elim (hx c) (hp.not_isBreak c)
  obtain ⟨hpiece, hpieces⟩ := List.forall_mem_cons.mp hpieces
  refine ⟨by simp, fun line hline => ?_, ?_⟩
  · rcases List.mem_append.mp hline with hline | hline
    · exact (hbefore line hline).2
    · rcases List.mem_cons.mp hline with rfl | hline
      · exact hunder hsymbol hpiece
      · obtain ⟨p, hp, rfl⟩ := List.mem_map.mp hline
        exact hunder hspaces (hpieces p hp)
  · rw [List.getLast?_append_of_ne_nil _ (List.cons_ne_nil _ _)]
    intro hlast
    rcases List.mem_cons.mp (List.mem_of_getLast? hlast) with hnil | hmem
    · exact hpiece.1.ends.1 (List.append_eq_nil_iff.mp hnil.symm).2
    · obtain ⟨p, hp, hnil⟩ := List.mem_map.mp hmem
      exact (hpieces p hp).1.ends.1 (List.append_eq_nil_iff.mp hnil).2

theorem map_collapseTabs_item {before pieces : List Text} {piece : Text} (hbefore : BlankLines before) :
    (before ++ (i.symbol ++ piece) :: pieces.map fun p => List.replicate n ' ' ++ p).map w.collapseTabs =
      before ++ (i.symbol ++ w.collapseTabs piece) :: pieces.map fun p => List.replicate n ' ' ++ w.collapseTabs p := by
  have hspaces : ∀ {k : Nat}, tabMark ∉ List.replicate k ' ' :=
    fun hmem => absurd (List.eq_of_mem_replicate hmem) (by decide)
  have hsymbol : tabMark ∉ i.symbol := by
    intro hmem
    rcases ListItem.mem_symbol_cases hmem with heq | hmem
    · cases heq
    · exact absurd (i.isBullet.not_isFiller _ hmem) (by decide)
  have hblank : before.map w.collapseTabs = before := by
    refine (List.map_congr_left fun line hline => ?_).trans (List.map_id before)
    exact collapseFrom_eq_self fun hmem => absurd (isBlank_of_mem (hbefore line hline).1 hmem) (by decide)
  rw [List.map_append, hblank, List.map_cons, List.map_map, collapseTabs_append_of_not_mem hsymbol]
  congr 2
  exact List.map_congr_left fun p _ => collapseTabs_append_of_not_mem hspaces

/-- Wrapping a list item writes blank lines and the lines of the item.  The first of these is the symbol with a word
behind it.  The others hang under the text just if there are none, or not exactly one blank line comes before the
item. -/
theorem hangs_iff (hw : w.IsProse) (htab : '\t' ∉ t) (hblanks : ∀ line ∈ blanks, Blank line)
    (hrows : ∀ row ∈ rows, Phrase row ∧ w.markers.isBare row = false)
    (hlines : HasLines (LineEnding.normalize t) (blanks ++ i.line :: rows))
    (hproper : ProperLines (blanks ++ i.line :: rows)) :
    ∃ before word later, HasLines (LineEnding.normalize (w.wrap t)) (before ++ (i.symbol ++ word) :: later) ∧
      ProperLines (before ++ (i.symbol ++ word) :: later) ∧ (∀ line ∈ before, Blank line) ∧ StartsWord word ∧
      ((∀ line ∈ later, HangsAt i.column line) ↔ later = [] ∨ blanks.length ≠ 1) := by
  have htab' : '\t' ∉ LineEnding.normalize t := fun hmem => htab (LineEnding.mem_of_mem_normalize hmem)
  obtain ⟨before, piece, pieces, hbefore, hpieces, hwrap⟩ := hw.exists_wrapExpanded htab' hblanks hrows hlines hproper
  generalize hcolumn : (if blanks.length = 1 then 1 + i.column else i.column) = column at hwrap
  have hitem := properLines_item (i := i) (n := column) hbefore hpieces
  obtain ⟨hlines', hproper'⟩ := hasLines_wrap (w := w) (t := t) (by
    rw [expandedWrap, expandTabs_eq_self htab', hwrap]
    exact hasLines_closeLike _ _) hitem
  rw [map_collapseTabs_item hbefore] at hlines' hproper'
  obtain ⟨hpiece, hpieces⟩ := List.forall_mem_cons.mp hpieces
  refine ⟨before, _, _, hlines', hproper', fun line hline => (hbefore line hline).1, startsWord_collapseTabs hpiece, ?_⟩
  have hhang : ∀ line ∈ pieces.map fun p => List.replicate column ' ' ++ w.collapseTabs p, HangsAt column line := by
    intro line hline
    obtain ⟨p, hp, rfl⟩ := List.mem_map.mp hline
    exact ⟨_, rfl, startsWord_collapseTabs (hpieces p hp)⟩
  have hequal : column = i.column ↔ blanks.length ≠ 1 := by
    split at hcolumn <;> omega
  rw [forall_hangsAt_iff hhang, hequal]

/-- After one empty line the second line of a list item hangs one column too far. -/
theorem not_hangsAt_after_blank :
    let w : Wrapper := ⟨{ Options.prose with width := 6 }, .prose⟩
    let t := "\n- aaa bbb".toList
    let i : ListItem := ⟨0, ['-'], 0, "aaa bbb".toList, .dash, by decide, 'a', by decide, rfl⟩
    w.IsProse ∧ '\t' ∉ t ∧ HasLines (LineEnding.normalize t) ([[]] ++ [i.line]) ∧
    HasLines (LineEnding.normalize (w.wrap t)) [[], "- aaa".toList, "   bbb".toList] ∧
    ¬HangsAt i.column "   bbb".toList := by
  intro w t i
  have hw : w.IsProse := isProse_of_ofOptions? (o := { Options.prose with width := 6 }) rfl rfl rfl
  have hlines : HasLines (LineEnding.normalize t) ([[]] ++ [i.line]) := .inl (by decide)
  have hproper : ProperLines ([[]] ++ [i.line]) := by decide
  have hwritten : HasLines (LineEnding.normalize (w.wrap t)) [[], "- aaa".toList, "   bbb".toList] := by
    have hitem : IsItem w i [] i.line := ⟨.inl rfl, hproper.of_append (List.cons_ne_nil _ _), by simp⟩
    have hpieces : w.pieces ('\n' :: i.line) = ["aaa".toList, "bbb".toList] := by
      have hgreedy : Break.greedy? 8 "aaa bbb".toList 3 = some ["aaa".toList, "bbb".toList] := by decide
      have hbody : w.body ('\n' :: i.line) = "aaa bbb".toList := by decide
      have hroom : w.room ('\n' :: i.line) = 3 := by decide
      rw [pieces, hbody, hroom]
      exact Break.greedy_eq_of_greedy? (by decide) hgreedy
    have hout : w.expandedWrap t = "\n- aaa\n   bbb".toList := by
      have hcuts := Pattern.leads_proseLeaders.cuts_separator_single (b := []) (hitem.not_indent hw) (by simp)
      have hexpand : w.expandTabs (LineEnding.normalize t) = [] ++ '\n' :: i.line := by decide
      rw [expandedWrap, hexpand, wrapExpanded_eq, hw.markers, Markers.prose, hcuts, wrapAround_nil,
        hw.wrapParagraph_blank_append (b := []) blank_nil (by simp) (by decide) (by rintro c ⟨⟩; rfl) hitem.last
          (hitem.not_indent hw) (by simp [breakLines_of_pieces hpieces]), breakLines_of_pieces hpieces]
      decide
    rw [wrap_eq_apply, hout]
    exact .inl (by decide)
  refine ⟨hw, by decide, hlines, hwritten, ?_⟩
  have hblanks : ∀ line ∈ ([[]] : List Text), Blank line := by simp
  have hrows : ∀ row ∈ ([] : List Text), Phrase row ∧ w.markers.isBare row = false := by simp
  obtain ⟨before, word, later, hlines', hproper', hbefore, hword, hiff⟩ :=
    hangs_iff hw (t := t) (i := i) (by decide) hblanks hrows hlines hproper
  have hunique := hlines'.unique hwritten hproper' (by decide)
  rcases before with _ | ⟨_, _ | ⟨line, _⟩⟩
  · cases (List.cons.inj hunique).1
  · obtain ⟨-, hlater⟩ := List.cons.inj (List.cons.inj hunique).2
    rw [hlater] at hiff
    simpa using hiff
  · obtain ⟨hline, -⟩ := List.cons.inj (List.cons.inj hunique).2
    exact absurd (hbefore line (by simp)) (by rw [hline, Blank]; decide)

end Wrapper

end Reflow
