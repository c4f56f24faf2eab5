import Reflow.Proofs.Break.Checked
import Reflow.Proofs.Comment.LinePrefix
import Reflow.Proofs.Wrapper.Stable
import Reflow.Proofs.Wrapper.Tabs

/-!
# Block comments

The lines of a block comment after the first one start with a star below its opener.  That takes a first line whose
indent is the opener between blanks: behind a tab the opener is not recognized, nor with the tag that the words start
with, and then every line of the comment opens it again (`Wrapper.openedOnce_iff`).
-/

namespace Reflow

variable {blanks opener first words : Text} {later : List Text} {stars n : Nat}

/-- What opens a block comment: a slash and stars. -/
def blockOpener (stars : Nat) : Text :=
  '/' :: List.replicate (stars + 1) '*'

/-- The first line opens a comment after some white space, and the others go on with a star after the same white
space. -/
structure OpenedOnce (blanks opener first : Text) (later : List Text) : Prop where
  opens : blanks ++ opener <+: first
  stars : ∀ line ∈ later, blanks ++ [' ', '*', ' '] <+: line
  once : ∀ line ∈ later, ¬blanks ++ opener <+: line

theorem not_prefix_of_star {line : Text} (h : blanks ++ [' ', '*', ' '] <+: line) :
    ¬blanks ++ blockOpener stars <+: line := by
  rintro ⟨r, hr⟩
  obtain ⟨r', rfl⟩ := h
  rw [List.append_assoc, List.append_assoc, List.append_cancel_left_eq] at hr
  exact absurd (List.cons.inj hr).1 (by decide)

/-- Where either all other lines have a star or all open the comment again, it is opened once if there are none or
they have a star. -/
theorem openedOnce_iff_of_alternative {P : Prop} (hfirst : blanks ++ blockOpener stars <+: first)
    (hstars : P → ∀ line ∈ later, blanks ++ [' ', '*', ' '] <+: line)
    (hagain : ¬P → ∀ line ∈ later, blanks ++ blockOpener stars <+: line) :
    OpenedOnce blanks (blockOpener stars) first later ↔ later = [] ∨ P := by
  constructor
  · intro h
    by_contra hnot
    rw [not_or] at hnot
    obtain ⟨line, rest, rfl⟩ := List.exists_cons_of_ne_nil hnot.1
    exact h.once line List.mem_cons_self (hagain hnot.2 line List.mem_cons_self)
  · rintro (rfl | hP)
    · exact ⟨hfirst, by simp, by simp⟩
    · exact ⟨hfirst, hstars hP, fun line hline => not_prefix_of_star (hstars hP line hline)⟩

theorem BreakTag.not_mem_tab {g : Text} (h : BreakTag g) : '\t' ∉ g ∧ tabMark ∉ g :=
  ⟨fun hmem => absurd (h.isTagChar hmem) (by decide), fun hmem => absurd (h.isTagChar hmem) (by decide)⟩

namespace Wrapper

variable {w : Wrapper} {t : Text}

/-! ## The indent of a line that opens a comment -/

theorem tag_prefix_expandTabs_iff (htab : 0 < w.options.tabWidth) {g : Text} (hg : BreakTag g) :
    g <+: w.expandTabs words ↔ g <+: words := by
  obtain ⟨hgtab, hgmark⟩ := hg.not_mem_tab
  constructor
  · rintro ⟨r, hr⟩
    obtain ⟨r', rfl⟩ := exists_append_of_expandTabs htab hr.symm hgmark
    exact List.prefix_append _ _
  · rintro ⟨r, rfl⟩
    rw [expandTabs_append, expandTabs_eq_self hgtab]
    exact List.prefix_append _ _

theorem mem_blockOpener {c : Char} (h : c ∈ blockOpener stars) : c = '/' ∨ c = '*' :=
  (List.mem_cons.mp h).imp_right List.eq_of_mem_replicate

theorem expandTabs_blockOpener : w.expandTabs (blockOpener stars) = blockOpener stars :=
  expandTabs_eq_self fun hmem => absurd (mem_blockOpener hmem) (by decide)

theorem isFiller_expandTabs (h : ∀ c ∈ blanks, c = ' ' ∨ c = '\t') : (w.expandTabs blanks).all isFiller = true := by
  refine List.all_eq_true.mpr fun c hc => ?_
  rcases mem_of_mem_expandTabs hc with rfl | hc
  · decide
  · rcases h c hc with rfl | rfl <;> decide

theorem exists_indent_opener (htab : 0 < w.options.tabWidth) (hblanks : ∀ c ∈ blanks, c = ' ' ∨ c = '\t')
    (hwords : ∀ c ∈ words.head?, isBlank c = false)
    (hbreak : ∀ c ∈ blanks ++ (blockOpener stars ++ (List.replicate (n + 1) ' ' ++ words)), isBreak c = false) :
    ∃ g, (BreakTag g ∧ g <+: words ∨ g = [] ∧ ∀ g', BreakTag g' → ¬g' <+: words) ∧
      (Markers.code.splitLine
        (w.expandTabs (blanks ++ (blockOpener stars ++ (List.replicate (n + 1) ' ' ++ words))))).indent =
          w.expandTabs blanks ++ (blockOpener stars ++ (List.replicate (n + 1) ' ' ++ g)) := by
  obtain ⟨g, r, hsplit, hg⟩ := exists_tag_append (w.expandTabs words)
  have hspaces : w.expandTabs (List.replicate (n + 1) ' ') = List.replicate (n + 1) ' ' :=
    expandTabs_eq_self fun hmem => absurd (List.eq_of_mem_replicate hmem) (by decide)
  have hhead : ∀ c ∈ (w.expandTabs words).head?, isBlank c = false := by
    cases words with
    | nil => exact fun c hc => absurd hc (by simp [expandTabs])
    | cons d words =>
      have hd := hwords d rfl
      have hne : d ≠ '\t' := by
        rintro rfl
        cases hd
      rw [expandTabs_cons_of_ne hne]
      rintro c ⟨⟩
      exact hd
  have hlongest := Markers.longest_indent_of_leader (a := w.expandTabs blanks) (l := blockOpener stars)
    (b := List.replicate (n + 1) ' ') (g := g) (r := r) (isFiller_expandTabs hblanks) (.opener stars)
    (blank_replicate _) (by simp) (by rwa [← hsplit])
    (hg.imp_right fun h => ⟨h.1, by simpa [hsplit, h.1] using h.2⟩)
  refine ⟨g, ?_, ?_⟩
  · rcases hg with hg | ⟨hnil, htag⟩
    · exact .inl ⟨hg, (tag_prefix_expandTabs_iff htab hg).mp ⟨r, hsplit.symm⟩⟩
    · exact .inr ⟨hnil, fun g' hg' hprefix => htag g' hg' ((tag_prefix_expandTabs_iff htab hg').mpr hprefix)⟩
  · have hline : w.expandTabs (blanks ++ (blockOpener stars ++ (List.replicate (n + 1) ' ' ++ words))) =
        w.expandTabs blanks ++ (blockOpener stars ++ (List.replicate (n + 1) ' ' ++ (g ++ r))) := by
      rw [expandTabs_append, expandTabs_append, expandTabs_append, expandTabs_blockOpener, hspaces, hsplit]
    rw [← Markers.indent_splitLine_of_longest hlongest, hline]
    rw [← hline]
    exact fun c hc => not_isBreak_of_mem_expandTabs hbreak hc

theorem isOpener_blockOpener {a b : Text} (ha : ∀ c ∈ a, isBlank c = true) (hb : ∀ c ∈ b, isBlank c = true) :
    isOpener (a ++ (blockOpener stars ++ b)) = true := by
  have htrim : Text.trim (a ++ (blockOpener stars ++ b)) = blockOpener stars := by
    refine Text.strip_append ha hb (by rintro c ⟨⟩; decide) fun c hc => ?_
    rcases mem_blockOpener (List.mem_of_getLast? hc) with rfl | rfl <;> decide
  rw [isOpener, htrim]
  simp [blockOpener]

theorem continued_blockOpener {a b : Text} (ha : ∀ c ∈ a, isBlank c = true) (hb : ∀ c ∈ b, isBlank c = true) :
    continued (a ++ (blockOpener stars ++ b)) = a ++ [' ', '*', ' '] := by
  rw [continued, if_pos (isOpener_blockOpener ha hb), List.takeWhile_append_of_pos ha, blockOpener, List.cons_append,
    List.takeWhile_cons_of_neg (by decide), List.append_nil]

theorem prefix_collapseTabs (htab : 0 < w.options.tabWidth) {x y : Text} (hx : tabMark ∉ x) :
    x ++ [' '] <+: w.collapseTabs (w.expandTabs x ++ ' ' :: y) := by
  rw [collapseTabs_append (by decide), collapseTabs_expandTabs htab hx]
  exact ⟨w.collapseTabs y, by simp⟩

/-! ## The lines of a block comment -/

section

variable (htab : 0 < w.options.tabWidth) (hblanks : ∀ c ∈ blanks, c = ' ' ∨ c = '\t')
include htab hblanks

theorem prefix_blockOpener (stars n : Nat) (y : Text) :
    blanks ++ blockOpener stars <+:
      w.collapseTabs (w.expandTabs blanks ++ (blockOpener stars ++ (List.replicate (n + 1) ' ' ++ y))) := by
  have hmark : tabMark ∉ blanks ++ blockOpener stars := by
    rw [List.mem_append, not_or]
    exact ⟨fun hmem => absurd (hblanks _ hmem) (by decide), fun hmem => absurd (mem_blockOpener hmem) (by decide)⟩
  have hprefix := prefix_collapseTabs htab (y := List.replicate n ' ' ++ y) hmark
  rw [expandTabs_append, expandTabs_blockOpener] at hprefix
  refine (List.prefix_append _ [' ']).trans ?_
  simpa [List.replicate_succ] using hprefix

/-- Without a tab in front of the opener and a tag behind it the other lines start with a star. -/
theorem prefix_star (hnotab : '\t' ∉ blanks) (piece : Text) :
    blanks ++ [' ', '*', ' '] <+: w.collapseTabs
      (continued (w.expandTabs blanks ++ (blockOpener stars ++ (List.replicate (n + 1) ' ' ++ []))) ++ piece) := by
  have hblank : ∀ c ∈ blanks, isBlank c = true := fun c hc => by rcases hblanks c hc with rfl | rfl <;> rfl
  have hstar : ∀ c ∈ blanks ++ [' ', '*'], c ≠ tabMark ∧ c ≠ '\t' := by
    intro c hc
    rcases List.mem_append.mp hc with hc | hc
    · rcases hblanks c hc with rfl | rfl
      · decide
      · exact absurd hc hnotab
    · rcases List.mem_pair.mp hc with rfl | rfl <;> decide
  have hprefix := prefix_collapseTabs htab (y := piece) fun hmem => (hstar _ hmem).1 rfl
  rw [expandTabs_eq_self fun hmem => (hstar _ hmem).2 rfl] at hprefix
  rw [expandTabs_eq_self hnotab, List.append_nil, continued_blockOpener hblank fun c hc => isBlank_of_mem_spaces hc]
  simpa using hprefix

/-- With a tab or a tag the other lines open the comment again. -/
theorem prefix_again {g : Text} (hg : BreakTag g ∨ g = []) (h : '\t' ∈ blanks ∨ g ≠ []) (piece : Text) :
    blanks ++ blockOpener stars <+: w.collapseTabs
      (continued (w.expandTabs blanks ++ (blockOpener stars ++ (List.replicate (n + 1) ' ' ++ g))) ++ piece) := by
  have hopener :
      isOpener (w.expandTabs blanks ++ (blockOpener stars ++ (List.replicate (n + 1) ' ' ++ g))) = false := by
    rcases h with hmem | hne
    · refine not_isOpener_of_mem (c := tabMark) ?_ (by decide) (by decide)
      obtain ⟨x, y, rfl⟩ := List.append_of_mem hmem
      rw [expandTabs_append, expandTabs_cons_tab]
      simp [Nat.ne_of_gt htab]
    · obtain ⟨g', rfl⟩ := (hg.resolve_right hne).exists_cons
      exact not_isOpener_of_mem (c := '<') (by simp) (by decide) (by decide)
  rw [continued, hopener, if_neg Bool.false_ne_true]
  simpa using prefix_blockOpener htab hblanks stars n (g ++ piece)

end

/-- The lines of a block comment: the first one opens it, and the others go on with a star below the opener just if
there are none, or there is no tab in front of the opener and no tag in front of the words. -/
theorem openedOnce_iff (hw : w.IsCode) (htab : 0 < w.options.tabWidth) {ls : List Text}
    (hblanks : ∀ c ∈ blanks, c = ' ' ∨ c = '\t') (hwords : ∀ c ∈ words.head?, isBlank c = false)
    (hlines : HasLines (LineEnding.normalize t)
      ((blanks ++ (blockOpener stars ++ (List.replicate (n + 1) ' ' ++ words))) :: ls))
    (hproper : ProperLines ((blanks ++ (blockOpener stars ++ (List.replicate (n + 1) ' ' ++ words))) :: ls))
    (hbare : ∀ line ∈ (blanks ++ (blockOpener stars ++ (List.replicate (n + 1) ' ' ++ words))) :: ls,
      w.markers.isBare line = false) :
    ∃ first later, HasLines (LineEnding.normalize (w.wrap t)) (first :: later) ∧ ProperLines (first :: later) ∧
      (OpenedOnce blanks (blockOpener stars) first later ↔
        later = [] ∨ '\t' ∉ blanks ∧ ∀ g, BreakTag g → ¬g <+: words) := by
  generalize hline : blanks ++ (blockOpener stars ++ (List.replicate (n + 1) ' ' ++ words)) = line at *
  have hholds : HoldsWords (w.expandTabs (LineEnding.normalize t)) := by
    refine holdsWords_expandTabs htab ?_
    rwa [hlines.closedLines_eq hproper, ← hw.markers]
  have hlines' : HasLines (w.expandTabs (LineEnding.normalize t)) ((line :: ls).map w.expandTabs) :=
    hlines.map rfl fun x y => by rw [expandTabs_append, expandTabs_cons_of_ne (by decide)]
  have hne : w.expandTabs (LineEnding.normalize t) ≠ [] := by
    rw [ne_eq, expandTabs_eq_nil_iff htab]
    intro hnil
    have hclosed := hlines.closedLines_eq hproper
    rw [hnil] at hclosed
    cases hclosed
  obtain ⟨hwritten, hproper'⟩ :=
    hasLines_wrap (hholds.hasLines hw hne) (hholds.properLines hw hne)
  -- the indent of the paragraph is that of its first line
  have hbreak : ∀ c ∈ blanks ++ (blockOpener stars ++ (List.replicate (n + 1) ' ' ++ words)), isBreak c = false :=
    hline ▸ hproper.unbroken line List.mem_cons_self
  obtain ⟨g, hg, hindent⟩ := exists_indent_opener htab hblanks hwords hbreak
  rw [hline] at hindent
  have hword : ¬Indent (w.expandTabs line) := by
    obtain ⟨c, hc, -⟩ := exists_word_of_expandTabs htab (hw.markers ▸ hbare line List.mem_cons_self)
    intro hindent'
    rw [Markers.rest_of_indent hindent'] at hc
    exact List.not_mem_nil hc
  rw [← Markers.indent_splitLine_of_hasLines hlines' hword, ← hw.markers] at hindent
  obtain ⟨piece, pieces, hpieces⟩ := List.exists_cons_of_ne_nil (hholds.breaks_pieces hw hne).ne_nil
  rw [breakLines_of_pieces hpieces, hw.first_eq, hw.later_eq, hindent, List.map_cons, List.map_map] at hwritten hproper'
  refine ⟨_, _, hwritten, hproper', openedOnce_iff_of_alternative ?_ ?_ ?_⟩
  · simpa using prefix_blockOpener htab hblanks stars n (g ++ piece)
  · rintro ⟨hnotab, htag⟩ line hline
    obtain ⟨p, -, rfl⟩ := List.mem_map.mp hline
    obtain rfl : g = [] := (hg.resolve_left fun h => htag g h.1 h.2).1
    exact prefix_star htab hblanks hnotab p
  · intro hnot line hline
    obtain ⟨p, -, rfl⟩ := List.mem_map.mp hline
    refine prefix_again htab hblanks (hg.imp And.left And.left) ?_ p
    by_contra hneither
    rw [not_or, not_not] at hneither
    exact hnot ⟨hneither.1, (hg.resolve_left fun htag => htag.1.ne_nil hneither.2).2⟩

/-- Behind a tab a comment opens again on its second line. -/
theorem not_openedOnce_tab :
    let w : Wrapper := ⟨{ width := 9 }, .code⟩
    let t := "\t/* aa bb".toList
    w.IsCode ∧ 0 < w.options.tabWidth ∧ HasLines (LineEnding.normalize t) [t] ∧ w.markers.isBare t = false ∧
    HasLines (LineEnding.normalize (w.wrap t)) ["\t/* aa".toList, "\t/* bb".toList] ∧
    ¬OpenedOnce ['\t'] (blockOpener 0) "\t/* aa".toList ["\t/* bb".toList] := by
  intro w t
  have hlines : HasLines (LineEnding.normalize t) [t] := .inl (by decide)
  have hproper : ProperLines [t] := by decide
  have hexpand : w.expandTabs (LineEnding.normalize t) = "☃☃☃☃/* aa bb".toList := by decide
  have hpieces : w.pieces "☃☃☃☃/* aa bb".toList = ["aa".toList, "bb".toList] := by
    have hgreedy : Break.greedy? 6 "aa bb".toList 2 = some ["aa".toList, "bb".toList] := by decide
    exact Break.greedy_eq_of_greedy? (by decide) hgreedy
  have hwrap : HasLines (LineEnding.normalize (w.wrap t)) ["\t/* aa".toList, "\t/* bb".toList] := by
    have hout : w.expandedWrap t = "☃☃☃☃/* aa\n☃☃☃☃/* bb".toList := by
      rw [expandedWrap, hexpand, wrapExpanded_of_worded rfl (worded_of_not_isBare (by decide)) (by decide),
        breakLines_of_pieces hpieces]
      decide
    rw [wrap_eq_apply, hout]
    exact .inl (by decide)
  obtain ⟨hw, htab⟩ : w.IsCode ∧ 0 < w.options.tabWidth := isCode_of_ofOptions? (o := { width := 9 }) rfl rfl rfl
  refine ⟨hw, htab, hlines, by decide, hwrap, ?_⟩
  have hblanks : ∀ c ∈ ['\t'], c = ' ' ∨ c = '\t' := by simp
  have hwords : ∀ c ∈ "aa bb".toList.head?, isBlank c = false := by
    rintro c ⟨⟩
    rfl
  have hopens : t = ['\t'] ++ (blockOpener 0 ++ (List.replicate (0 + 1) ' ' ++ "aa bb".toList)) := by decide
  rw [hopens] at hproper
  obtain ⟨first, later, hfirst, hproper', hiff⟩ :=
    openedOnce_iff hw htab hblanks hwords hlines hproper (by decide)
  obtain ⟨rfl, rfl⟩ := List.cons.inj (hfirst.unique hwrap hproper' (by decide))
  rw [hiff]
  simp

end Wrapper

end Reflow
