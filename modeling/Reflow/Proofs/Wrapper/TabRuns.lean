import Reflow.Proofs.Batch.Wrap
import Reflow.Proofs.Break.Checked
import Reflow.Proofs.Comment.Prose
import Reflow.Proofs.Wrapper.Layout
import Reflow.Proofs.Wrapper.Tabs

/-!
# Runs of tab marks

Wrapping parts a text between the marks of a tab nowhere: what the patterns find begins and ends at a seam, where
a mark stands on one side at most (`Pattern.Seamed`), and so does the rest of a line after its indent
(`Leads.spelled_splitLine`).  All else that is cut off holds no marks.  So in what wrapping writes all marks come from
tabs that are spelled out (`Wrapper.spelled_wrapExpanded`), and as many of them stand in a row as some tabs have
columns (`Wrapper.tabs_in_full`).
-/

namespace Reflow

open Pattern

/-! ## Seams -/

/-- A place between two characters, or ends of the text, of which one at most is a mark. -/
def Seam (before after : Option Char) : Prop :=
  before ≠ some tabMark ∨ after ≠ some tabMark

/-- What the pattern describes begins and ends at seams. -/
structure Pattern.Seamed (p : Pattern) : Prop where
  start : ∀ {before m after}, Fits p before m after → Seam before (m.head?.or after)
  stop : ∀ {before m after}, Fits p before m after → Seam (m.getLast?.or before) after

theorem Seam.of_or {a b c : Option Char} (h : Seam (a.or b) c) : Seam a c := by
  cases a with
  | none => exact .inl nofun
  | some _ => exact h

namespace Leads

variable {leader : Pattern} {leads : Text → Prop} (h : Leads leader leads)
include h

theorem seamed_separator : (Markers.ofLeader leader).separator.Seamed where
  start hfits := by
    obtain ⟨x, a, k, y, rfl, rfl | rfl, -⟩ := h.fits_separator_iff.mp hfits
    · exact .inr (by simp [tabMark])
    · exact .inr (by simp [tabMark])
  stop hfits := by
    obtain ⟨x, a, k, y, rfl, -, -, -, rfl | rfl⟩ := h.fits_separator_iff.mp hfits
    · exact .inl (by simp [tabMark])
    · exact .inl (by simp [tabMark])

theorem seamed_bareLine : (Markers.ofLeader leader).bareLine.Seamed where
  start hfits := by
    refine .inl fun hmark => ?_
    exact absurd (isBreak_of_isLineStart (h.fits_bareLine_iff.mp hfits).1 hmark) (by decide)
  stop hfits := by
    refine .inr fun hmark => ?_
    exact absurd (isBreak_of_isLineEnd (h.fits_bareLine_iff.mp hfits).2.2 hmark) (by decide)

end Leads

namespace Wrapper

variable {w : Wrapper} {t u : Text} {p : Char → Bool}

/-- A text that is cut at seams falls into texts whose tabs are spelled out. -/
theorem spelled_of_allFit {q : Pattern} (hq : q.Seamed) {before : Option Char} {cuts : List Cut} {last : Text}
    (hfit : AllFit q before cuts last) (h : w.Spelled (uncut cuts last)) :
    (∀ cut ∈ cuts, w.Spelled cut.gap ∧ w.Spelled cut.hit) ∧ w.Spelled last := by
  induction cuts generalizing before with
  | nil => exact ⟨nofun, h⟩
  | cons cut cuts ih =>
    obtain ⟨hcut, hfit⟩ := hfit
    rw [uncut] at h
    have hstart : Seam cut.gap.getLast? (cut.hit ++ uncut cuts last).head? := by
      rw [List.head?_append]
      exact (hq.start hcut).of_or
    obtain ⟨hgap, hback⟩ := h.split hstart
    obtain ⟨hhit, hlast⟩ := hback.split (hq.stop hcut).of_or
    obtain ⟨hcuts, hlast⟩ := ih hfit hlast
    exact ⟨List.forall_mem_cons.mpr ⟨⟨hgap, hhit⟩, hcuts⟩, hlast⟩

/-! ## What is cut off -/

namespace Spelled

theorem filter (hmark : p tabMark = true) (htab : p '\t' = true) (h : w.Spelled u) : w.Spelled (u.filter p) := by
  obtain ⟨t, ht, rfl⟩ := h
  refine ⟨t.filter p, fun hmem => ht (List.mem_of_mem_filter hmem), ?_⟩
  induction t with
  | nil => rfl
  | cons c t ih =>
    have ih := ih fun hmem => ht (List.mem_cons_of_mem _ hmem)
    by_cases hc : c = '\t'
    · have hcolumns : (List.replicate w.options.tabWidth tabMark).filter p =
          List.replicate w.options.tabWidth tabMark :=
        List.filter_eq_self.mpr fun d hd => by rw [List.eq_of_mem_replicate hd, hmark]
      rw [hc, expandTabs_cons_tab, List.filter_append, hcolumns, ih, List.filter_cons_of_pos htab, expandTabs_cons_tab]
    · rw [expandTabs_cons_of_ne hc]
      cases hp : p c with
      | true => rw [List.filter_cons_of_pos hp, ih, List.filter_cons_of_pos hp, expandTabs_cons_of_ne hc]
      | false =>
        have hnot : ¬p c = true := Bool.eq_false_iff.mp hp
        rw [List.filter_cons_of_neg hnot, ih, List.filter_cons_of_neg hnot]

theorem of_prefix {x y : Text} (h : w.Spelled (x ++ y)) (hx : tabMark ∉ x) : w.Spelled y :=
  (h.split (.inl fun hlast => hx (List.mem_of_getLast? hlast))).2

theorem dropWhile (hp : p tabMark = false) (h : w.Spelled u) : w.Spelled (u.dropWhile p) := by
  rw [← List.takeWhile_append_dropWhile (p := p) (l := u)] at h
  refine h.of_prefix fun hmem => ?_
  rw [List.all_eq_true.mp List.all_takeWhile _ hmem] at hp
  cases hp

theorem takeWhile (hp : p tabMark = false) (h : w.Spelled u) : w.Spelled (u.takeWhile p) := by
  refine of_not_mem (fun hmem => ?_) fun hmem => h.not_mem_tab ((List.takeWhile_sublist _).mem hmem)
  rw [List.all_eq_true.mp List.all_takeWhile _ hmem] at hp
  cases hp

theorem strip (hp : p tabMark = false) (h : w.Spelled u) : w.Spelled (Text.strip p u) := by
  obtain ⟨a, b, hu, ha, hb⟩ := Text.exists_strip p u
  have hmark : ∀ {x : Text}, (∀ c ∈ x, p c = true) → tabMark ∉ x := by
    intro x hx hmem
    rw [hx _ hmem] at hp
    cases hp
  rw [hu] at h
  exact (h.of_prefix (hmark ha)).of_append (hmark hb)

theorem of_mem_split {sep : Char → Bool} (hsep : sep tabMark = false) (h : w.Spelled u) {piece : Text}
    (hpiece : piece ∈ Text.split sep u) : w.Spelled piece := by
  obtain ⟨x, y, rfl, hx, hy⟩ := Text.exists_around_of_mem_split hpiece
  have hlast : x.getLast? ≠ some tabMark := by
    intro hmark
    rw [hx _ hmark] at hsep
    cases hsep
  have hhead : y.head? ≠ some tabMark := by
    intro hmark
    rw [hy _ hmark] at hsep
    cases hsep
  exact ((h.split (.inl hlast)).2.split (.inr hhead)).1

theorem of_breaks {ls : List Text} (hbreaks : Break.Breaks t ls) (h : w.Spelled t) : ∀ l ∈ ls, w.Spelled l := by
  induction hbreaks with
  | last line => simpa using h
  | skip _ ih => exact ih (h.of_prefix (x := [' ']) (by decide))
  | @cons line t ls _ ih =>
    have hseam : (' ' :: t).head? ≠ some tabMark := by simp [tabMark]
    obtain ⟨hline, hback⟩ := h.split (.inr hseam)
    exact List.forall_mem_cons.mpr ⟨hline, ih (hback.of_prefix (x := [' ']) (by decide))⟩

end Spelled

end Wrapper

/-! ## Lines in their parts -/

namespace Leads

variable {leader : Pattern} {leads : Text → Prop} (h : Leads leader leads) {w : Wrapper} {t m rest : Text}
include h

/-- An indent takes in all marks, so that none comes after one in it. -/
theorem seam_of_longest_indent (hlongest : LongestAt (Markers.ofLeader leader).indent none t m rest) :
    Seam m.getLast? rest.head? := by
  obtain ⟨rfl, ⟨a, k, rfl, ha, hk⟩, hle⟩ := h.longest_indent_iff.mp hlongest
  by_contra hnot
  obtain ⟨hlast, hhead⟩ := not_or.mp hnot
  rw [not_not] at hlast hhead
  obtain ⟨rest', rfl⟩ := List.head?_eq_some_iff.mp hhead
  by_cases hnil : k = []
  · subst hnil
    have hlonger : IndentOf leads (a ++ [tabMark] ++ []) :=
      IndentOf.nil.append (by rw [List.all_append, ha]; decide)
    have hlength := hle (a ++ [tabMark] ++ []) rest' (by simp) hlonger
    simp only [List.append_nil, List.length_append, List.length_singleton] at hlength
    omega
  · rw [List.getLast?_append_of_ne_nil _ hnil] at hlast
    exact hk.not_mem h.isLeaderChar_of_mem (List.mem_of_getLast? hlast)

theorem spelled_splitLine (ht : w.Spelled t) :
    w.Spelled ((Markers.ofLeader leader).splitLine t).indent ∧
    w.Spelled ((Markers.ofLeader leader).splitLine t).rest := by
  obtain ⟨m, rest, hlongest⟩ := h.exists_longest_indent t
  rw [hlongest.split] at ht
  obtain ⟨hm, hrest⟩ := ht.split (h.seam_of_longest_indent hlongest)
  rw [h.splitLine_eq hlongest]
  exact ⟨hm.filter (by decide) (by decide), hrest.strip (by decide)⟩

end Leads

namespace Wrapper

variable {leader : Pattern} {leads : Text → Prop} {w : Wrapper} {t : Text}

theorem not_mem_symbol (t : Text) : tabMark ∉ (w.indents t).symbol := by
  simp only [indents]
  split
  · cases hsymbol : listSymbol? t with
    | none => exact List.not_mem_nil
    | some symbol =>
      obtain ⟨a, b, c, rest, rfl, -, ha, hb, hc, -⟩ := exists_of_listSymbol? hsymbol
      intro hmem
      rw [Option.getD_some] at hmem
      simp only [List.mem_append] at hmem
      rcases hmem with hmem | hmem | hmem
      · exact absurd (isBlank_of_mem ha hmem) (by decide)
      · exact absurd (hb.not_isFiller _ hmem) (by decide)
      · exact absurd (isBlank_of_mem hc hmem) (by decide)
  · exact List.not_mem_nil

theorem spelled_symbol (ht : w.Spelled t) : w.Spelled (w.indents t).symbol :=
  .of_not_mem (not_mem_symbol t) fun hmem => ht.not_mem_tab (mem_indents_symbol hmem)

/-! ## One paragraph -/

section

variable (hw : w.markers = .ofLeader leader) (h : Leads leader leads) (ht : w.Spelled t)
include hw h ht

theorem spelled_unwrap : w.Spelled (w.unwrap t) := by
  refine .join (by decide) (by decide) ?_
  rw [List.forall_mem_map]
  intro line hline
  rw [hw]
  exact (h.spelled_splitLine (ht.of_mem_split (by decide) (List.mem_of_mem_filter hline))).2

theorem spelled_body : w.Spelled (w.body t) := by
  have hunwrap := spelled_unwrap hw h ht
  unfold body dropSymbol
  simp only
  split
  · exact hunwrap
  · split
    · next rest hrest =>
      rw [Text.eq_of_after? hrest] at hunwrap
      have hmark : tabMark ∉ Text.trim (w.indents t).symbol :=
        fun hmem => not_mem_symbol t (Text.mem_of_mem_strip hmem)
      exact (hunwrap.of_prefix hmark).dropWhile (by decide)
    · exact hunwrap

theorem spelled_pieces : ∀ piece ∈ w.pieces t, w.Spelled piece := by
  obtain ⟨ls, hbreaks, heq⟩ := w.exists_breaks t
  rw [heq]
  exact fun piece hpiece =>
    Spelled.of_breaks hbreaks (spelled_body hw h ht) piece (Text.mem_of_mem_dropTrailingEmpty hpiece)

theorem spelled_indent : w.Spelled (w.markers.splitLine t).indent := by
  rw [hw]
  exact (h.spelled_splitLine ht).1

theorem spelled_first : w.Spelled (w.indents t).first := by
  have hindent := spelled_indent hw h ht
  have hsymbol := spelled_symbol ht
  by_cases hempty : (w.indents t).symbol.isEmpty
  · rwa [show (w.indents t).first = (w.markers.splitLine t).indent from if_pos hempty]
  · rwa [show (w.indents t).first = (w.indents t).symbol from if_neg hempty]

theorem spelled_later : w.Spelled (w.indents t).later := by
  have hindent := spelled_indent hw h ht
  simp only [indents]
  split
  · exact (hindent.takeWhile (by decide)).append (.of_not_mem (by decide) (by decide))
  · by_cases hempty : (w.indents t).symbol.isEmpty
    · rwa [if_pos (by exact hempty)]
    · rw [if_neg (by exact hempty)]
      refine .of_not_mem ?_ ?_
      · exact fun hmem => absurd (List.eq_of_mem_replicate hmem) (by decide)
      · exact fun hmem => absurd (List.eq_of_mem_replicate hmem) (by decide)

theorem spelled_breakLines : ∀ line ∈ w.breakLines t, w.Spelled line := by
  have hpieces := spelled_pieces hw h ht
  unfold breakLines
  split
  · exact nofun
  · next piece pieces heq =>
    rw [heq, List.forall_mem_cons] at hpieces
    refine List.forall_mem_cons.mpr ⟨(spelled_first hw h ht).append hpieces.1, ?_⟩
    exact List.forall_mem_map.mpr fun piece hpiece => (spelled_later hw h ht).append (hpieces.2 piece hpiece)

theorem spelled_terminated : w.Spelled (terminated (w.breakLines t)) := by
  have hlines := spelled_breakLines hw h ht
  generalize w.breakLines t = ls at hlines
  induction ls with
  | nil => exact .nil
  | cons l ls ih =>
    rw [List.forall_mem_cons] at hlines
    have hfeed : w.Spelled ['\n'] := .of_not_mem (by decide) (by decide)
    exact (hlines.1.append hfeed).append (ih hlines.2)

end

/-! ## A whole text -/

section

variable (hw : w.markers = .ofLeader leader) (h : Leads leader leads)
include hw h

theorem spelled_wrapBetween {whole pending last : Text} {cuts : List Cut} (hpending : w.Spelled pending)
    (hcuts : ∀ cut ∈ cuts, w.Spelled cut.gap ∧ w.Spelled cut.hit) (hlast : w.Spelled last) :
    w.Spelled (w.wrapBetween whole pending cuts last) := by
  induction cuts generalizing pending with
  | nil =>
    rw [wrapBetween]
    split
    · exact .nil
    · exact spelled_terminated hw h (hpending.append hlast)
  | cons cut cuts ih =>
    obtain ⟨⟨hgap, hhit⟩, hcuts⟩ := List.forall_mem_cons.mp hcuts
    have hfeed : w.Spelled ['\n'] := .of_not_mem (by decide) (by decide)
    have hopen : w.Spelled (if cut.hit.isPrefixOf whole then cut.hit ++ ['\n'] else []) := by
      split
      · exact hhit.append hfeed
      · exact .nil
    have hclose : w.Spelled (if cut.hit.isSuffixOf whole then cut.hit else []) := by
      split
      · exact hhit
      · exact .nil
    rw [wrapBetween]
    split
    · exact ih (hpending.append hgap) hcuts
    · exact ((hopen.append (spelled_terminated hw h (hpending.append hgap))).append hclose).append (ih .nil hcuts)

theorem spelled_wrapParagraph (ht : w.Spelled t) : w.Spelled (w.wrapParagraph t) := by
  obtain ⟨hcuts, hlast⟩ := spelled_of_allFit h.seamed_bareLine (allFit_cuts h.longest_bareLine t)
    (by rwa [uncut_cuts])
  have hbetween : w.Spelled (w.wrapBetween t [] ((Markers.ofLeader leader).bareLine.cuts t).1
      ((Markers.ofLeader leader).bareLine.cuts t).2) := spelled_wrapBetween hw h .nil hcuts hlast
  rw [wrapParagraph_eq, hw]
  rcases dropFinalBreak_cases (w.wrapBetween t [] ((Markers.ofLeader leader).bareLine.cuts t).1
    ((Markers.ofLeader leader).bareLine.cuts t).2) with heq | heq
  · rwa [← heq]
  · rw [heq] at hbetween
    exact hbetween.of_append (by decide)

theorem spelled_wrapAround {cuts : List Cut} {last : Text}
    (hcuts : ∀ cut ∈ cuts, w.Spelled cut.gap ∧ w.Spelled cut.hit) (hlast : w.Spelled last) :
    w.Spelled (w.wrapAround cuts last) := by
  induction cuts with
  | nil =>
    rw [wrapAround]
    split
    · exact .nil
    · exact spelled_wrapParagraph hw h hlast
  | cons cut cuts ih =>
    obtain ⟨⟨hgap, hhit⟩, hcuts⟩ := List.forall_mem_cons.mp hcuts
    exact ((spelled_wrapParagraph hw h hgap).append hhit).append (ih hcuts)

theorem spelled_wrapExpanded (ht : w.Spelled t) : w.Spelled (w.wrapExpanded t) := by
  obtain ⟨hcuts, hlast⟩ := spelled_of_allFit h.seamed_separator (allFit_cuts h.longest_separator t)
    (by rwa [uncut_cuts])
  have haround := spelled_wrapAround hw h hcuts hlast
  rw [wrapExpanded_eq, hw]
  rcases closeLike_cases t (w.wrapAround ((Markers.ofLeader leader).separator.cuts t).1
    ((Markers.ofLeader leader).separator.cuts t).2) with heq | heq
  · rwa [heq]
  · rw [heq]
    exact haround.append (.of_not_mem (by decide) (by decide))

end

/-! ## Tabs in full -/

namespace Spelled

theorem dvd_of_replicate {n : Nat} (h : w.Spelled (List.replicate n tabMark)) : w.options.tabWidth ∣ n := by
  obtain ⟨t, ht, heq⟩ := h
  induction t generalizing n with
  | nil =>
    have hlength : n = 0 := by simpa [expandTabs] using congrArg List.length heq
    rw [hlength]
    exact Nat.dvd_zero _
  | cons c t ih =>
    rw [List.mem_cons, not_or] at ht
    by_cases hc : c = '\t'
    · rw [hc, expandTabs_cons_tab] at heq
      have hlength := congrArg List.length heq
      rw [List.length_append, List.length_replicate, List.length_replicate] at hlength
      rw [hlength, List.replicate_add, List.append_right_inj] at heq
      rw [hlength]
      exact Nat.dvd_add (Nat.dvd_refl _) (ih ht.2 heq)
    · rw [expandTabs_cons_of_ne hc] at heq
      have hmark : c ∈ List.replicate n tabMark := by
        rw [heq]
        exact List.mem_cons_self
      exact absurd (List.eq_of_mem_replicate hmark).symm ht.1

theorem dvd_of_run {x y : Text} {n : Nat} (h : w.Spelled (x ++ (List.replicate n tabMark ++ y)))
    (hx : x.getLast? ≠ some tabMark) (hy : y.head? ≠ some tabMark) : w.options.tabWidth ∣ n :=
  ((h.split (.inl hx)).2.split (.inr hy)).1.dvd_of_replicate

end Spelled

theorem exists_leads_of_ofOptions? {o : Options} (ho : ofOptions? o = some w)
    (hleader : o.leader = codeLeader ∨ o.leader = proseLeader) :
    0 < w.options.tabWidth ∧ ∃ leader leads, w.markers = .ofLeader leader ∧ Leads leader leads := by
  obtain ⟨leader, leads, hread, h⟩ := Markers.exists_leads_of_read? hleader
  rw [ofOptions?, hread, Option.map_some, Option.some.injEq] at ho
  rw [← ho]
  exact ⟨Nat.lt_of_lt_of_le Nat.one_pos (Nat.le_max_right _ _), leader, leads, rfl, h⟩

/-- Of a text without marks, wrapping writes all marks in rows of as many as some tabs have columns.  So none
is left when tabs are put back, and there are tabs only if the text has tabs. -/
theorem tabs_in_full {o : Options} (hleader : o.leader = codeLeader ∨ o.leader = proseLeader) (ht : tabMark ∉ t) :
    ∃ w, ofOptions? o = some w ∧ tabMark ∉ w.wrap t ∧
      (∀ x n y, w.expandedWrap t = x ++ (List.replicate n tabMark ++ y) → x.getLast? ≠ some tabMark →
        y.head? ≠ some tabMark → w.options.tabWidth ∣ n) ∧
      ('\t' ∉ t → '\t' ∉ w.wrap t) := by
  obtain ⟨w, ho⟩ := exists_ofOptions? hleader
  obtain ⟨htab, leader, leads, hw, h⟩ := exists_leads_of_ofOptions? ho hleader
  have hnormal : tabMark ∉ LineEnding.normalize t := fun hmem => ht (LineEnding.mem_of_mem_normalize hmem)
  have hspelled : w.Spelled (w.expandedWrap t) := spelled_wrapExpanded hw h ⟨_, hnormal, rfl⟩
  obtain ⟨u, hu, heq⟩ := hspelled
  have hwrap : w.wrap t = (LineEnding.detect t).apply u := by
    rw [wrap_eq_apply, heq, collapseTabs_expandTabs htab hu]
  refine ⟨w, ho, ?_, ?_, ?_⟩
  · rw [hwrap]
    intro hmem
    rcases LineEnding.mem_of_mem_apply hmem with hreturn | hmem
    · exact absurd hreturn (by decide)
    · exact hu hmem
  · intro x n y hrun hx hy
    rw [hrun] at heq
    exact Spelled.dvd_of_run ⟨u, hu, heq⟩ hx hy
  · intro htabs hmem
    rw [hwrap] at hmem
    rcases LineEnding.mem_of_mem_apply hmem with hreturn | hmem
    · exact absurd hreturn (by decide)
    · -- the tab was spelled out in marks, which the text does not have
      have hmark : tabMark ∈ w.expandedWrap t := by
        rw [heq]
        exact List.mem_flatMap.mpr ⟨'\t', hmem, List.mem_replicate.mpr ⟨Nat.ne_of_gt htab, rfl⟩⟩
      rw [expandedWrap, expandTabs_eq_self fun hmem => htabs (LineEnding.mem_of_mem_normalize hmem)] at hmark
      exact not_mem_wrapExpanded (by decide) hnormal hmark

/-- Both lines of a comment behind a tab start with that tab. -/
theorem tabs_in_full_comment :
    let o : Options := { width := 9 }
    let t := "\t// aa bb".toList
    (o.leader = codeLeader ∨ o.leader = proseLeader) ∧ tabMark ∉ t ∧ ∃ w, ofOptions? o = some w ∧
      w.expandedWrap t = "☃☃☃☃// aa\n☃☃☃☃// bb".toList ∧ tabMark ∉ w.wrap t ∧ w.options.tabWidth ∣ 4 := by
  intro o t
  have hleader : o.leader = codeLeader ∨ o.leader = proseLeader := .inl rfl
  have hmark : tabMark ∉ t := by decide
  obtain ⟨w, ho, hwrap, hruns, -⟩ := tabs_in_full hleader hmark
  have hw : w = ⟨{ width := 9 }, .code⟩ := Option.some.inj (ho.symm.trans rfl)
  have hout : w.expandedWrap t = "☃☃☃☃// aa\n☃☃☃☃// bb".toList := by
    have hexpand : (⟨{ width := 9 }, .code⟩ : Wrapper).expandTabs (LineEnding.normalize t) = "☃☃☃☃// aa bb".toList := by
      decide
    have hpieces : (⟨{ width := 9 }, .code⟩ : Wrapper).pieces "☃☃☃☃// aa bb".toList = ["aa".toList, "bb".toList] := by
      have hgreedy : Break.greedy? 6 "aa bb".toList 2 = some ["aa".toList, "bb".toList] := by decide
      exact Break.greedy_eq_of_greedy? (by decide) hgreedy
    rw [hw, expandedWrap_of_pieces rfl hexpand (worded_of_not_isBare (by decide)) (by decide) hpieces]
    decide
  have hrun : "☃☃☃☃// aa\n☃☃☃☃// bb".toList =
      [] ++ (List.replicate 4 tabMark ++ "// aa\n☃☃☃☃// bb".toList) := by decide
  exact ⟨hleader, hmark, w, ho, hout, hwrap, hruns _ _ _ (hout.trans hrun) (by decide) (by decide)⟩

end Wrapper

end Reflow
