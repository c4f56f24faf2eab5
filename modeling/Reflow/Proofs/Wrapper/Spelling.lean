import Reflow.Proofs.Text.LineEnding
import Reflow.Proofs.Wrapper.Characters

/-!
# Tabs and line endings

A text is wrapped with its tabs spelled out and with line feeds for its line breaks, and what comes
out is written the way the text was.  Reading back what was written gives the same text again
(`Wrapper.expandTabs_collapseTabs` and `LineEnding.normalize_apply`), so wrapping is the wrapping of
expanded texts (`Wrapper.wrap_eq_wrapExpanded`) and a second run changes something just if that does
(`Wrapper.wrap_wrap_eq_iff`).
-/

namespace Reflow

/-- Nothing in the text is spelled otherwise while it is wrapped: no carriage return, no tab and no mark
for one. -/
def Plain (t : Text) : Prop :=
  ∀ c ∈ t, c ≠ '\r' ∧ c ≠ '\t' ∧ c ≠ tabMark

instance (t : Text) : Decidable (Plain t) :=
  List.decidableBAll _ t

namespace Plain

variable {t u : Text}

theorem not_mem_return (h : Plain t) : '\r' ∉ t := fun hmem => (h _ hmem).1 rfl

theorem not_mem_tab (h : Plain t) : '\t' ∉ t := fun hmem => (h _ hmem).2.1 rfl

theorem not_mem_tabMark (h : Plain t) : tabMark ∉ t := fun hmem => (h _ hmem).2.2 rfl

theorem mono (h : Plain t) (hsub : ∀ c ∈ u, c = '\n' ∨ c ∈ t) : Plain u := by
  intro c hc
  rcases hsub c hc with rfl | hmem
  · decide
  · exact h c hmem

end Plain

namespace Wrapper

variable {w : Wrapper} {t : Text}

/-! ## Tabs -/

theorem expandTabs_eq_self (h : '\t' ∉ t) : w.expandTabs t = t := by
  induction t with
  | nil => rfl
  | cons c t ih =>
    rw [List.mem_cons, not_or] at h
    rw [expandTabs] at ih ⊢
    rw [List.flatMap_cons, ih h.2, if_neg (Ne.symm h.1)]
    rfl

theorem collapseFrom_eq_self {tabWidth : Nat} (h : tabMark ∉ t) : collapseFrom tabWidth 0 t = t := by
  induction t with
  | nil => rfl
  | cons c t ih =>
    rw [List.mem_cons, not_or] at h
    rw [collapseFrom, if_neg (Ne.symm h.1), ih h.2]
    rfl

theorem collapseFrom_append {tabWidth : Nat} {u : Text} {c : Char} (hc : c ≠ tabMark) (run : Nat) :
    collapseFrom tabWidth run (t ++ c :: u) = collapseFrom tabWidth run t ++ c :: collapseFrom tabWidth 0 u := by
  induction t generalizing run with
  | nil => simp [collapseFrom, hc]
  | cons d t ih =>
    rw [List.cons_append, collapseFrom, collapseFrom]
    split
    · split
      · rw [ih, List.cons_append]
      · exact ih (run + 1)
    · rw [ih, List.append_assoc, List.cons_append]

theorem collapseTabs_append {u : Text} {c : Char} (hc : c ≠ tabMark) :
    w.collapseTabs (t ++ c :: u) = w.collapseTabs t ++ c :: w.collapseTabs u :=
  collapseFrom_append hc 0

theorem collapseTabs_append_of_not_mem {u : Text} (ht : tabMark ∉ t) :
    w.collapseTabs (t ++ u) = t ++ w.collapseTabs u := by
  induction t with
  | nil => rfl
  | cons c t ih =>
    rw [List.mem_cons, not_or] at ht
    rw [← List.nil_append (c :: t ++ u), List.cons_append, collapseTabs_append (Ne.symm ht.1), ih ht.2]
    rfl

theorem expandTabs_append (t u : Text) : w.expandTabs (t ++ u) = w.expandTabs t ++ w.expandTabs u :=
  List.flatMap_append

theorem expandTabs_replicate (n : Nat) :
    w.expandTabs (List.replicate n tabMark) = List.replicate n tabMark := by
  refine expandTabs_eq_self fun h => ?_
  exact absurd (List.eq_of_mem_replicate h) (by decide)

theorem expandTabs_collapseFrom (h : '\t' ∉ t) (run : Nat) :
    w.expandTabs (collapseFrom w.options.tabWidth run t) = List.replicate run tabMark ++ t := by
  induction t generalizing run with
  | nil => rw [collapseFrom, expandTabs_replicate, List.append_nil]
  | cons c t ih =>
    rw [List.mem_cons, not_or] at h
    have hrun : List.replicate (run + 1) tabMark ++ t = List.replicate run tabMark ++ tabMark :: t := by
      rw [List.replicate_succ', List.append_assoc]
      rfl
    rw [collapseFrom]
    split
    · rename_i hc
      subst hc
      split
      · rename_i hwidth
        have htab : w.expandTabs ['\t'] = List.replicate (run + 1) tabMark := by
          rw [hwidth]
          exact List.append_nil _
        rw [← List.singleton_append, expandTabs_append, ih h.2, htab, List.replicate_zero,
          List.nil_append, hrun]
      · rw [ih h.2, hrun]
    · rw [expandTabs_append, expandTabs_replicate, ← List.singleton_append, expandTabs_append, ih h.2,
        expandTabs_eq_self (t := [c]) (by simpa using h.1)]
      rfl

theorem expandTabs_collapseTabs (h : '\t' ∉ t) : w.expandTabs (w.collapseTabs t) = t :=
  expandTabs_collapseFrom h 0

theorem not_mem_expandTabs : '\t' ∉ w.expandTabs t := by
  rw [expandTabs, List.mem_flatMap]
  rintro ⟨c, -, h⟩
  split at h
  · exact absurd (List.eq_of_mem_replicate h) (by decide)
  · rename_i hc
    exact hc (List.mem_singleton.mp h).symm

theorem mem_collapseFrom {tabWidth run : Nat} {c : Char} (h : c ∈ collapseFrom tabWidth run t) :
    c = tabMark ∨ c = '\t' ∨ c ∈ t := by
  induction t generalizing run with
  | nil => exact .inl (List.eq_of_mem_replicate h)
  | cons d t ih =>
    rw [collapseFrom] at h
    have hlater : ∀ run, c ∈ collapseFrom tabWidth run t → c = tabMark ∨ c = '\t' ∨ c ∈ d :: t :=
      fun run h => (ih h).imp_right fun h => h.imp_right (List.mem_cons_of_mem _)
    split at h
    · split at h
      · rcases List.mem_cons.mp h with h | h
        · exact .inr (.inl h)
        · exact hlater 0 h
      · exact hlater (run + 1) h
    · rcases List.mem_append.mp h with h | h
      · exact .inl (List.eq_of_mem_replicate h)
      · rcases List.mem_cons.mp h with rfl | h
        · exact .inr (.inr List.mem_cons_self)
        · exact hlater 0 h

/-! ## Wrapping a text as it is written -/

theorem cuts_nil (p : Pattern) : p.cuts [] = ([], []) ∨ p.cuts [] = ([⟨[], []⟩], []) := by
  rw [Pattern.cuts]
  cases h : p.find? false none [] with
  | none => exact .inl (Pattern.cutsFrom_eq_of_none h)
  | some m =>
    have heq := Pattern.eq_of_find? h
    simp only [List.nil_eq, List.append_eq_nil_iff] at heq
    obtain ⟨⟨hgap, hhit⟩, hrest⟩ := heq
    rw [Pattern.cutsFrom_eq_of_some h, hgap, hhit, hrest, Pattern.cutsFrom_eq_of_none (by rfl)]
    exact .inr rfl

theorem wrapParagraph_nil (w : Wrapper) : w.wrapParagraph [] = [] := by
  rw [wrapParagraph_eq]
  rcases cuts_nil w.markers.bareLine with h | h <;> rw [h] <;> rfl

theorem wrapExpanded_nil (w : Wrapper) : w.wrapExpanded [] = [] := by
  rw [wrapExpanded]
  rcases cuts_nil w.markers.separator with h | h
  · rw [h]
    rfl
  · rw [h]
    simp [wrapAround, wrapParagraph_nil]

theorem wrap_eq (w : Wrapper) (t : Text) :
    w.wrap t = (LineEnding.detect t).apply
      (w.collapseTabs (w.wrapExpanded (w.expandTabs (LineEnding.normalize t)))) := by
  rw [wrap]
  split
  · rename_i h
    rw [List.isEmpty_iff.mp h]
    exact (congrArg w.collapseTabs w.wrapExpanded_nil).symm
  · rfl

theorem wrap_eq_wrapExpanded (h : Plain t) : w.wrap t = w.wrapExpanded t := by
  have hout : tabMark ∉ w.wrapExpanded t := by
    intro hmem
    rcases mem_wrapExpanded hmem with hmem | hmade
    · exact h.not_mem_tabMark hmem
    · exact absurd hmade (by decide)
  rw [wrap_eq, LineEnding.detect_eq_lf h.not_mem_return, LineEnding.normalize_eq_self h.not_mem_return,
    expandTabs_eq_self h.not_mem_tab, LineEnding.apply_lf, collapseTabs, collapseFrom_eq_self hout]

theorem not_mem_collapseTabs {c : Char} (hmark : c ≠ tabMark) (htab : c ≠ '\t') (h : c ∉ t) :
    c ∉ w.collapseTabs t := by
  intro hmem
  rcases mem_collapseFrom hmem with h' | h' | h'
  · exact hmark h'
  · exact htab h'
  · exact h h'

theorem not_mem_wrapExpanded {c : Char} (hmade : isMade c = false) (h : c ∉ t) :
    c ∉ w.wrapExpanded t := by
  intro hmem
  rcases mem_wrapExpanded hmem with h' | h'
  · exact h h'
  · rw [hmade] at h'
    cases h'

/-- What wrapping a text writes before its line endings and tabs are put back. -/
def expandedWrap (w : Wrapper) (t : Text) : Text :=
  w.wrapExpanded (w.expandTabs (LineEnding.normalize t))

theorem not_mem_expandedWrap : '\t' ∉ w.expandedWrap t :=
  not_mem_wrapExpanded (by decide) not_mem_expandTabs

theorem wrap_eq_apply : w.wrap t = (LineEnding.detect t).apply (w.collapseTabs (w.expandedWrap t)) :=
  wrap_eq w t

theorem expandTabs_normalize_wrap (hcr : '\r' ∉ w.expandedWrap t) :
    w.expandTabs (LineEnding.normalize (w.wrap t)) = w.expandedWrap t := by
  have hcr' : '\r' ∉ w.collapseTabs (w.expandedWrap t) :=
    not_mem_collapseTabs (by decide) (by decide) hcr
  rw [wrap_eq_apply, LineEnding.normalize_apply _ hcr', expandTabs_collapseTabs not_mem_expandedWrap]

/-- Wrapping a second time changes nothing just if wrapping changes nothing in the expanded text. -/
theorem wrap_wrap_eq_iff (hcr : '\r' ∉ w.expandedWrap t) :
    w.wrap (w.wrap t) = w.wrap t ↔ w.wrapExpanded (w.expandedWrap t) = w.expandedWrap t := by
  have hread := expandTabs_normalize_wrap hcr
  have hsecond : w.expandedWrap (w.wrap t) = w.wrapExpanded (w.expandedWrap t) := by
    rw [expandedWrap, hread]
  constructor
  · intro h
    have hcr' : '\r' ∉ w.expandedWrap (w.wrap t) := by
      rw [hsecond]
      exact not_mem_wrapExpanded (by decide) hcr
    have h' := expandTabs_normalize_wrap hcr'
    rw [h, hread, hsecond] at h'
    exact h'.symm
  · intro h
    have hcollapse : '\r' ∉ w.collapseTabs (w.expandedWrap t) :=
      not_mem_collapseTabs (by decide) (by decide) hcr
    rw [wrap_eq_apply (t := w.wrap t), hsecond, h, wrap_eq_apply]
    rcases LineEnding.detect_apply (LineEnding.detect t) hcollapse with hdetect | hlf
    · rw [hdetect]
    · rw [LineEnding.apply_of_not_mem _ hlf, LineEnding.apply_of_not_mem _ hlf]

end Wrapper

end Reflow
