import Reflow.Proofs.Comment.Aligned
import Reflow.Proofs.Wrapper.Expanded

/-!
# Spaces for tabs

A text with spaces for its tabs (`Wrapper.spaceTabs`) is the text with its tabs spelled out and with spaces
for the marks.  If tabs stand in front of lines (`Wrapper.TabsLead`), and of lines without words only at the ends of
the text (`Wrapper.BareAtEnds`), then so do the marks (`Wrapper.aligned_expandTabs`).
-/

namespace Reflow.Wrapper

variable {w : Wrapper} {t u v l : Text} {c : Char}

/-- The text with a column of spaces for each column of its tabs. -/
def spaceTabs (w : Wrapper) (t : Text) : Text :=
  t.flatMap fun c => if c = '\t' then List.replicate w.options.tabWidth ' ' else [c]

/-- Tabs stand only in the white space that lines start with. -/
def TabsLead (t : Text) : Prop :=
  ∀ l ∈ Text.lines t, '\t' ∉ Text.trimStart l

instance (t : Text) : Decidable (TabsLead t) :=
  List.decidableBAll _ _

/-- A line without words that has a tab is the first one, or the last one after a line with words. -/
def BareAtEnds (t : Text) : Prop :=
  ∀ pre k l post, Text.lines t = pre ++ k :: l :: post → Wordless l → '\t' ∈ l → post = [] ∧ ¬Wordless k

theorem mem_of_mem_expandTabs (h : c ∈ w.expandTabs t) : c = tabMark ∨ c ∈ t := by
  obtain ⟨d, hd, hc⟩ := List.mem_flatMap.mp h
  split at hc
  · exact .inl (List.eq_of_mem_replicate hc)
  · rw [List.mem_singleton.mp hc]
    exact .inr hd

theorem spaced_expandTabs (h : tabMark ∉ t) : spaced (w.expandTabs t) = w.spaceTabs t := by
  induction t with
  | nil => rfl
  | cons c t ih =>
    rw [List.mem_cons, not_or] at h
    rw [spaceTabs] at ih ⊢
    rw [List.flatMap_cons, ← ih h.2]
    by_cases hc : c = '\t'
    · rw [hc, expandTabs_cons_tab, spaced_append, if_pos rfl, spaced, List.map_replicate]
      rfl
    · have hunmark : unmark c = c := unmark_of_ne (Ne.symm h.1)
      rw [expandTabs_cons_of_ne hc, if_neg hc, spaced, List.map_cons, hunmark]
      rfl

/-! ## Texts whose tabs are spelled out -/

theorem collapseFrom_replicate {tabWidth : Nat} (k run : Nat) (h : run + (k + 1) = tabWidth) :
    collapseFrom tabWidth run (List.replicate (k + 1) tabMark ++ u) = '\t' :: collapseFrom tabWidth 0 u := by
  induction k generalizing run with
  | zero =>
    show collapseFrom tabWidth run (tabMark :: u) = _
    rw [collapseFrom, if_pos rfl, if_pos h]
  | succ k ih =>
    rw [List.replicate_succ, List.cons_append, collapseFrom, if_pos rfl, if_neg (by omega)]
    exact ih (run + 1) (by omega)

theorem collapseTabs_expandTabs (htab : 0 < w.options.tabWidth) (h : tabMark ∉ t) :
    w.collapseTabs (w.expandTabs t) = t := by
  rw [collapseTabs]
  induction t with
  | nil => rfl
  | cons c t ih =>
    rw [List.mem_cons, not_or] at h
    by_cases hc : c = '\t'
    · obtain ⟨k, hk⟩ := Nat.exists_eq_succ_of_ne_zero (Nat.ne_of_gt htab)
      have hrun := collapseFrom_replicate (u := w.expandTabs t) k 0 ((Nat.zero_add _).trans hk.symm)
      rw [← Nat.succ_eq_add_one, ← hk] at hrun
      rw [hc, expandTabs_cons_tab, hrun, ih h.2]
    · rw [expandTabs_cons_of_ne hc, collapseFrom, if_neg (Ne.symm h.1), ih h.2]
      rfl

/-- All marks in a text come from spelling out tabs. -/
def Spelled (w : Wrapper) (u : Text) : Prop :=
  ∃ t, tabMark ∉ t ∧ u = w.expandTabs t

namespace Spelled

theorem not_mem_tab (h : w.Spelled u) : '\t' ∉ u := by
  obtain ⟨t, -, rfl⟩ := h
  exact not_mem_expandTabs

theorem of_not_mem (hmark : tabMark ∉ u) (htab : '\t' ∉ u) : w.Spelled u :=
  ⟨u, hmark, (expandTabs_eq_self htab).symm⟩

theorem append (h : w.Spelled u) (h' : w.Spelled v) : w.Spelled (u ++ v) := by
  obtain ⟨t, ht, rfl⟩ := h
  obtain ⟨t', ht', rfl⟩ := h'
  exact ⟨t ++ t', by rw [List.mem_append, not_or]; exact ⟨ht, ht'⟩, (expandTabs_append t t').symm⟩

theorem nil : w.Spelled [] :=
  ⟨[], List.not_mem_nil, rfl⟩

theorem tab : w.Spelled (List.replicate w.options.tabWidth tabMark) := by
  refine ⟨['\t'], by decide, ?_⟩
  rw [expandTabs_cons_tab]
  exact (List.append_nil _).symm

/-- A text may be parted anywhere but between two marks. -/
theorem split (h : w.Spelled (u ++ v)) (hseam : u.getLast? ≠ some tabMark ∨ v.head? ≠ some tabMark) :
    w.Spelled u ∧ w.Spelled v := by
  obtain ⟨t, ht, heq⟩ := h
  induction t generalizing u with
  | nil =>
    obtain ⟨rfl, rfl⟩ := List.append_eq_nil_iff.mp heq
    exact ⟨nil, nil⟩
  | cons c t ih =>
    by_cases hu : u = []
    · rw [hu] at heq ⊢
      exact ⟨nil, c :: t, ht, heq⟩
    rw [List.mem_cons, not_or] at ht
    by_cases hc : c = '\t'
    · rw [hc, expandTabs_cons_tab] at heq
      rcases List.append_eq_append_iff.mp heq with ⟨e, he, hv⟩ | ⟨e, rfl, hte⟩
      · cases e with
        | nil =>
          rw [List.append_nil] at he
          rw [← he, hv]
          exact ⟨tab, t, ht.2, rfl⟩
        | cons d e =>
          -- the seam is among the columns of the tab
          have hcolumn : ∀ c ∈ u ++ d :: e, c = tabMark := fun c hc => List.eq_of_mem_replicate (he ▸ hc)
          rcases hseam with hlast | hhead
          · refine absurd ?_ hlast
            rw [List.getLast?_eq_some_getLast hu, hcolumn _ (List.mem_append_left _ (List.getLast_mem hu))]
          · rw [hv, List.cons_append, List.head?_cons, hcolumn d (by simp)] at hhead
            exact absurd rfl hhead
      · have hseam' : e.getLast? ≠ some tabMark ∨ v.head? ≠ some tabMark := by
          by_cases hnil : e = []
          · exact .inl (by simp [hnil])
          · rwa [List.getLast?_append_of_ne_nil _ hnil] at hseam
        obtain ⟨hfront, hback⟩ := ih hseam' ht.2 hte.symm
        exact ⟨tab.append hfront, hback⟩
    · obtain ⟨d, u, rfl⟩ := List.exists_cons_of_ne_nil hu
      rw [expandTabs_cons_of_ne hc] at heq
      obtain ⟨rfl, htail⟩ := List.cons.inj heq
      have hseam' : u.getLast? ≠ some tabMark ∨ v.head? ≠ some tabMark := by
        by_cases hnil : u = []
        · exact .inl (by simp [hnil])
        · rwa [List.getLast?_cons_of_ne_nil hnil] at hseam
      obtain ⟨hfront, hback⟩ := ih hseam' ht.2 htail
      have hd : w.Spelled [d] :=
        of_not_mem (by simpa using ht.1) (by simpa using fun h : '\t' = d => hc h.symm)
      exact ⟨hd.append hfront, hback⟩

theorem of_append (h : w.Spelled (u ++ v)) (hv : tabMark ∉ v) : w.Spelled u :=
  (h.split (.inr fun hhead => hv (List.mem_of_head? hhead))).1

theorem join (hmark : c ≠ tabMark) (htab : c ≠ '\t') {ls : List Text} (h : ∀ l ∈ ls, w.Spelled l) :
    w.Spelled (Text.join c ls) := by
  induction ls with
  | nil => exact nil
  | cons l ls ih =>
    rw [List.forall_mem_cons] at h
    by_cases hls : ls = []
    · rw [hls, Text.join_singleton]
      exact h.1
    · rw [Text.join_cons hls, List.append_cons]
      have hc : w.Spelled [c] := of_not_mem (by simpa using hmark.symm) (by simpa using htab.symm)
      exact (h.1.append hc).append (ih h.2)

theorem spaceTabs_collapseTabs (htab : 0 < w.options.tabWidth) (h : w.Spelled u) :
    w.spaceTabs (w.collapseTabs u) = spaced u := by
  obtain ⟨t, ht, rfl⟩ := h
  rw [collapseTabs_expandTabs htab ht, spaced_expandTabs ht]

end Spelled

/-! ## Marks in front of lines -/

theorem lines_expandTabs (hcr : '\r' ∉ t) : Text.lines (w.expandTabs t) = (Text.lines t).map w.expandTabs := by
  have hcr' : '\r' ∉ w.expandTabs t := by
    intro h
    rcases mem_of_mem_expandTabs h with h | h
    · exact absurd h (by decide)
    · exact hcr h
  rw [← Text.split_isBreak_eq_lines hcr', split_expandTabs, Text.split_isBreak_eq_lines hcr]

theorem leading_expandTabs (hmark : tabMark ∉ l) (htab : '\t' ∉ Text.trimStart l) : Leading (w.expandTabs l) := by
  have hsplit : l.takeWhile isBlank ++ Text.trimStart l = l := List.takeWhile_append_dropWhile
  refine ⟨w.expandTabs (l.takeWhile isBlank), Text.trimStart l, ?_, ?_, ?_⟩
  · conv => lhs; rw [← hsplit]
    rw [expandTabs_append, expandTabs_eq_self htab]
  · apply List.all_eq_true.mpr
    intro c hc
    obtain ⟨d, hd, hc⟩ := List.mem_flatMap.mp hc
    split at hc
    · rw [List.eq_of_mem_replicate hc]
      decide
    · rw [List.mem_singleton.mp hc]
      exact isFiller_of_isBlank (isBlank_of_mem List.all_takeWhile hd)
  · intro h
    apply hmark
    rw [← hsplit]
    exact List.mem_append_right _ h

/-- A line that is an indent with its tabs spelled out is one as it stands. -/
theorem indent_of_indent_expandTabs (htab : 0 < w.options.tabWidth) (h : Indent (w.expandTabs l)) : Indent l := by
  obtain ⟨m, rest, rfl, hm, hle⟩ := exists_indent_of_expandTabs htab (List.append_nil _).symm h
  rw [expandTabs_append, List.length_append] at hle
  have hnil : w.expandTabs rest = [] := List.eq_nil_of_length_eq_zero (by omega)
  rwa [(expandTabs_eq_nil_iff htab).mp hnil, List.append_nil]

theorem aligned_expandTabs (htab : 0 < w.options.tabWidth) (hcr : '\r' ∉ t) (hmark : tabMark ∉ t) (hlead : TabsLead t)
    (hbare : BareAtEnds t) : Aligned (w.expandTabs t) := by
  have hmark' : ∀ l ∈ Text.lines t, tabMark ∉ l := fun l hl hmem => hmark (Text.mem_of_mem_split hl _ hmem)
  have hlines := lines_expandTabs (w := w) hcr
  refine ⟨?_, ?_, ?_⟩
  · intro h
    rcases mem_of_mem_expandTabs h with h | h
    · exact absurd h (by decide)
    · exact hcr h
  · rw [hlines]
    intro l' hl'
    obtain ⟨l, hl, rfl⟩ := List.mem_map.mp hl'
    exact leading_expandTabs (hmark' l hl) (hlead l hl)
  · intro pre' k' l' post' hsplit hindent hmem
    rw [hlines] at hsplit
    obtain ⟨pre, q, hq, rfl, hback⟩ := List.map_eq_append_iff.mp hsplit
    obtain ⟨k, q, rfl, rfl, hlater⟩ := List.map_eq_cons_iff.mp hback
    obtain ⟨l, post, rfl, rfl, rfl⟩ := List.map_eq_cons_iff.mp hlater
    have hk : tabMark ∉ k := hmark' k (by rw [hq]; simp)
    have hl : tabMark ∉ l := hmark' l (by rw [hq]; simp)
    have htabs : '\t' ∈ l := by
      by_contra hnot
      rw [expandTabs_eq_self hnot] at hmem
      exact hl hmem
    obtain ⟨hpost, hwords⟩ := hbare pre k l post hq ((indent_of_indent_expandTabs htab hindent).wordless hl) htabs
    refine ⟨by rw [hpost]; rfl, fun hindent' => hwords ?_⟩
    exact (indent_of_indent_expandTabs htab hindent').wordless hk

theorem spelled_of_mem_lines (hcr : '\r' ∉ t) (hmark : tabMark ∉ t) :
    ∀ l ∈ Text.lines (w.expandTabs t), w.Spelled l := by
  rw [lines_expandTabs hcr]
  intro l' hl'
  obtain ⟨l, hl, rfl⟩ := List.mem_map.mp hl'
  exact ⟨l, fun hmem => hmark (Text.mem_of_mem_split hl _ hmem), rfl⟩

theorem spelled_of_lines (h : ∀ l ∈ Text.lines t, w.Spelled l) : w.Spelled t := by
  rw [← Text.ofLines_lines t]
  exact .join (by decide) (by decide) h

end Reflow.Wrapper
