import Reflow.Proofs.Comment.Cuts
import Reflow.Proofs.Wrapper.Paragraph

/-!
# Texts without words

What wrapping does with lines that hold no words.  Separators are kept, but a line that is left
between two of them is written twice: once because the paragraph begins with it and once because the
paragraph ends with it.  `Wrapper.wrap_eq_self_iff_of_wordless` says which texts of wordless lines
stay as they are.
-/

namespace Reflow

/-- Nothing, or two lines that are no wordless stretch together and of which neither starts or ends
the other. -/
def KeptAtEnd (t : Text) : Prop :=
  t = [] ∨ ∃ a b, Text.lines t = [a, b] ∧ ¬Wordless t ∧ (b = [] ∨ ¬a <:+ b ∧ ¬b <+: a)

/-- No line is left between the separators, and what comes after them is kept. -/
def Kept (t : Text) : Prop :=
  (∀ cut ∈ (Markers.code.separator.cuts t).1, cut.gap = []) ∧
    KeptAtEnd (Markers.code.separator.cuts t).2

theorem isSuffix_append_cons_iff {a b x : Text} {c : Char} (h : c ∉ a) :
    a <:+ x ++ c :: b ↔ a <:+ b := by
  constructor
  · rintro ⟨y, hy⟩
    rcases append_eq_append_cons hy with ⟨e, -, rfl⟩ | ⟨e, -, rfl⟩
    · exact absurd (by simp) h
    · exact ⟨e, rfl⟩
  · intro hsuffix
    exact hsuffix.trans ⟨x ++ [c], by simp⟩

theorem isPrefix_append_cons_iff {a b x : Text} {c : Char} (h : c ∉ b) :
    b <+: a ++ c :: x ↔ b <+: a := by
  constructor
  · rintro ⟨y, hy⟩
    rcases append_eq_append_cons hy with ⟨e, rfl, -⟩ | ⟨e, rfl, -⟩
    · exact ⟨e, rfl⟩
    · exact absurd (by simp) h
  · intro hprefix
    exact hprefix.trans ⟨c :: x, rfl⟩

namespace Wrapper

variable {w : Wrapper} {a b t : Text}

/-! ## Paragraphs without words -/

section

variable {whole pending last : Text} {cut : Pattern.Cut} {cuts : List Pattern.Cut}

theorem wrapBetween_nil_of_breaks (h : ∀ c ∈ pending ++ last, isBreak c = true) :
    w.wrapBetween whole pending [] last = [] := by
  rw [wrapBetween]
  simp only [breakLines_of_breaks h]
  exact ite_self []

/-- A bare line after line breaks is written for each end of the paragraph that it makes up. -/
theorem wrapBetween_cons_of_breaks (h : ∀ c ∈ pending ++ cut.gap, isBreak c = true) (hhit : cut.hit ≠ []) :
    w.wrapBetween whole pending (cut :: cuts) last =
      (if cut.hit <+: whole then cut.hit ++ ['\n'] else []) ++
        ((if cut.hit <:+ whole then cut.hit else []) ++ w.wrapBetween whole [] cuts last) := by
  rw [wrapBetween, if_neg (by simpa using hhit), breakLines_of_breaks h]
  simp only [List.isPrefixOf_iff_prefix, List.isSuffixOf_iff_suffix, List.append_assoc]
  rfl

end

theorem wrapParagraph_of_indent (hw : w.markers = .code) (ht : Indent t) (hne : t ≠ []) :
    w.wrapParagraph t = dropFinalBreak (t ++ '\n' :: t) := by
  rw [wrapParagraph_eq, hw, Markers.cuts_bareLine_of_indent ht,
    wrapBetween_cons_of_breaks (by simp) hne, wrapBetween_nil_of_breaks (by simp)]
  simp

theorem wrapParagraph_of_line (hw : w.markers = .code) (ht : Indent t) (hne : t ≠ []) (hlf : '\n' ∉ t) :
    w.wrapParagraph t = t ++ '\n' :: t := by
  rw [wrapParagraph_of_indent hw ht hne, dropFinalBreak, if_neg]
  rw [List.getLast?_append_of_ne_nil _ (List.cons_ne_nil _ _), List.getLast?_cons_of_ne_nil hne]
  exact fun hlast => hlf (List.mem_of_getLast? hlast)

section

variable (hw : w.markers = .code) (ha : Indent a) (hne : a ≠ []) (hbreak : ∀ c ∈ a ++ b, isBreak c = false)
  (h : ¬Indent (a ++ '\n' :: b))

include hw ha hne hbreak h

/-- Of two wordless lines the first is written again if it ends the second, and the second if it starts
the first. -/
theorem wrapParagraph_pair (hb : Indent b) (hbne : b ≠ []) :
    w.wrapParagraph (a ++ '\n' :: b) =
      a ++ '\n' :: ((if a <:+ b then a else []) ++ ((if b <+: a then b ++ ['\n'] else []) ++ b)) := by
  have hlf : '\n' ∉ a ++ b := fun hmem => absurd (hbreak _ hmem) (by decide)
  rw [List.mem_append, not_or] at hlf
  have hstart : a <+: a ++ '\n' :: b := List.prefix_append a _
  have hend : b <:+ a ++ '\n' :: b := ⟨a ++ ['\n'], by simp⟩
  have hwrap : w.wrapBetween (a ++ '\n' :: b) [] [⟨[], a⟩, ⟨['\n'], b⟩] [] =
      (a ++ '\n' :: ((if a <:+ b then a else []) ++ (if b <+: a then b ++ ['\n'] else []))) ++ b := by
    rw [wrapBetween_cons_of_breaks (by simp) hne, wrapBetween_cons_of_breaks (by simp [isBreak]) hbne,
      wrapBetween_nil_of_breaks (by simp), if_pos hstart, if_pos hend]
    simp only [isSuffix_append_cons_iff hlf.1, isPrefix_append_cons_iff hlf.2]
    simp
  have hlast : ∀ u : Text, (u ++ b).getLast? ≠ some '\n' := by
    intro u
    rw [List.getLast?_append_of_ne_nil _ hbne]
    exact fun hlast => hlf.2 (List.mem_of_getLast? hlast)
  rw [wrapParagraph_eq, hw, Markers.cuts_bareLine_pair ha hb hne hbreak h, hwrap, dropFinalBreak,
    if_neg (hlast _)]
  simp

/-- After a line that ends in a tag a line feed is left out. -/
theorem wrapParagraph_tag (hb : b = []) : w.wrapParagraph (a ++ '\n' :: b) = a := by
  subst hb
  have hstart : a <+: a ++ ['\n'] := List.prefix_append a _
  have hend : ¬a <:+ a ++ ['\n'] := by
    have hlf : '\n' ∉ a := fun hmem => absurd (hbreak _ (List.mem_append_left _ hmem)) (by decide)
    rw [isSuffix_append_cons_iff hlf]
    simpa using hne
  rw [wrapParagraph_eq, hw, Markers.cuts_bareLine_pair ha Indent.nil hne hbreak h,
    wrapBetween_cons_of_breaks (by simp) hne, if_pos hstart, if_neg hend, wrapBetween_cons_nil rfl,
    wrapBetween_nil_of_breaks (by simp [isBreak])]
  simp [dropFinalBreak]

end

/-! ## Texts of wordless lines -/

theorem kept_iff_of_cons {hit rest : Text}
    (h : Markers.code.separator.cuts t =
      (⟨a, hit⟩ :: (Markers.code.separator.cuts rest).1, (Markers.code.separator.cuts rest).2)) :
    Kept t ↔ a = [] ∧ Kept rest := by
  rw [Kept, Kept, h, List.forall_mem_cons, and_assoc]

theorem kept_iff_of_nil (h : Markers.code.separator.cuts t = ([], t)) : Kept t ↔ KeptAtEnd t := by
  rw [Kept, h]
  simp

/-- A text that is kept is wrapped to itself, but for a line feed at its end, and any other grows. -/
structure Outcome (t wrapped : Text) : Prop where
  /-- A text that is kept. -/
  kept : Kept t → closeLike t wrapped = t ∧ (t ≠ [] → wrapped ≠ [])
  /-- A text that is not. -/
  grown : ¬Kept t → t.length < wrapped.length

theorem Outcome.length_le {wrapped : Text} (h : Outcome t wrapped) : t.length ≤ wrapped.length + 1 := by
  by_cases hkept : Kept t
  · have := length_closeLike_le t wrapped
    rwa [(h.kept hkept).1] at this
  · have := h.grown hkept
    omega

theorem length_lt_of_indent (hw : w.markers = .code) (ht : Indent t) (hne : t ≠ []) :
    t.length < (w.wrapParagraph t).length := by
  rw [wrapParagraph_of_indent hw ht hne]
  have hpos := List.length_pos_iff.mpr hne
  have := length_le_length_dropFinalBreak (t ++ '\n' :: t)
  rw [List.length_append, List.length_cons] at this
  omega

theorem outcome_line (hw : w.markers = .code) (ht : Wordless t) (hlf : '\n' ∉ t)
    (hcuts : Markers.code.separator.cuts t = ([], t)) : Outcome t (w.wrapParagraph t) := by
  rcases eq_or_ne t [] with rfl | hne
  · rw [wrapParagraph_nil]
    refine ⟨fun _ => ⟨rfl, fun h => h⟩, fun h => ?_⟩
    exact absurd ((kept_iff_of_nil hcuts).mpr (.inl rfl)) h
  · refine ⟨fun hkept => ?_, fun _ => length_lt_of_indent hw ht.indent hne⟩
    rcases (kept_iff_of_nil hcuts).mp hkept with hnil | ⟨a, b, hlines, -⟩
    · exact absurd hnil hne
    · rw [Text.lines_eq_singleton hlf] at hlines
      cases hlines

theorem outcome_pair (hw : w.markers = .code) (ha : Wordless a) (hb : Wordless b)
    (hbreak : ∀ c ∈ a ++ b, isBreak c = false) (hmark : tabMark ∉ a ++ '\n' :: b)
    (hcuts : Markers.code.separator.cuts (a ++ '\n' :: b) = ([], a ++ '\n' :: b)) :
    Outcome (a ++ '\n' :: b) (w.wrapParagraph (a ++ '\n' :: b)) := by
  have hlf : '\n' ∉ a ++ b := fun hmem => absurd (hbreak _ hmem) (by decide)
  rw [List.mem_append, not_or] at hlf
  have hlines : Text.lines (a ++ '\n' :: b) = [a, b] := by
    rw [Text.lines_append, Text.lines_eq_singleton hlf.1, Text.lines_eq_singleton hlf.2]
    rfl
  have hkept : Kept (a ++ '\n' :: b) ↔ ¬Wordless (a ++ '\n' :: b) ∧ (b = [] ∨ ¬a <:+ b ∧ ¬b <+: a) := by
    rw [kept_iff_of_nil hcuts, KeptAtEnd, hlines]
    simp
  by_cases hwordless : Wordless (a ++ '\n' :: b)
  · refine ⟨fun h => absurd hwordless (hkept.mp h).1, fun _ => ?_⟩
    exact length_lt_of_indent hw hwordless.indent (by simp)
  · have hindent : ¬Indent (a ++ '\n' :: b) := fun h => hwordless (h.wordless hmark)
    have hne : a ≠ [] := by
      rintro rfl
      obtain ⟨x, m, rfl, hx, hm⟩ := hb
      exact hwordless ⟨'\n' :: x, m, rfl, blank_cons.mpr ⟨by decide, hx⟩, hm⟩
    rcases eq_or_ne b [] with hbnil | hbne
    · rw [wrapParagraph_tag hw ha.indent hne hbreak hindent hbnil]
      refine ⟨fun _ => ⟨?_, fun _ => hne⟩, fun h => absurd (hkept.mpr ⟨hwordless, .inl hbnil⟩) h⟩
      have hlast : a.getLast? ≠ some '\n' := fun h => hlf.1 (List.mem_of_getLast? h)
      simp [closeLike, hbnil, hlast]
    · rw [wrapParagraph_pair hw ha.indent hne hbreak hindent hb.indent hbne]
      have hapos := List.length_pos_iff.mpr hne
      have hbpos := List.length_pos_iff.mpr hbne
      by_cases hsuffix : a <:+ b
      · refine ⟨fun h => absurd hsuffix ((hkept.mp h).2.resolve_left hbne).1, fun _ => ?_⟩
        simp only [if_pos hsuffix, List.length_append, List.length_cons]
        omega
      · by_cases hprefix : b <+: a
        · refine ⟨fun h => absurd hprefix ((hkept.mp h).2.resolve_left hbne).2, fun _ => ?_⟩
          simp only [if_pos hprefix, List.length_append, List.length_cons]
          omega
        · rw [if_neg hsuffix, if_neg hprefix]
          refine ⟨fun _ => ⟨closeLike_self _, fun h => h⟩, fun h => ?_⟩
          exact absurd (hkept.mpr ⟨hwordless, .inr ⟨hsuffix, hprefix⟩⟩) h

/-- One separator more: the line before it is written twice, and nothing else changes. -/
theorem outcome_cons (hw : w.markers = .code) {hit rest wrapped : Text} (ha : Wordless a) (hlf : '\n' ∉ a)
    (hhit : hit ≠ [])
    (hcuts : Markers.code.separator.cuts (a ++ (hit ++ rest)) =
      (⟨a, hit⟩ :: (Markers.code.separator.cuts rest).1, (Markers.code.separator.cuts rest).2))
    (h : Outcome rest wrapped) : Outcome (a ++ (hit ++ rest)) (w.wrapParagraph a ++ (hit ++ wrapped)) := by
  have hkept := kept_iff_of_cons hcuts
  rcases eq_or_ne a [] with rfl | hne
  · rw [wrapParagraph_nil, List.nil_append, List.nil_append]
    refine ⟨fun hk => ⟨?_, fun _ => by simp [hhit]⟩, fun hk => ?_⟩
    · obtain ⟨hclose, hwrapped⟩ := h.kept (hkept.mp hk).2
      rcases eq_or_ne rest [] with rfl | hrest
      · rw [closeLike_of_ne (by simp)] at hclose
        rw [hclose, closeLike_self]
      · rw [closeLike_append hrest (hwrapped hrest), hclose]
    · have := h.grown fun hk' => hk (hkept.mpr ⟨rfl, hk'⟩)
      simpa using this
  · refine ⟨fun hk => absurd (hkept.mp hk).1 hne, fun _ => ?_⟩
    have hpos := List.length_pos_iff.mpr hne
    have := h.length_le
    rw [wrapParagraph_of_line hw ha.indent hne hlf]
    simp only [List.length_append, List.length_cons]
    omega

theorem outcome_wrapAround (hw : w.markers = .code) (hlines : ∀ line ∈ Text.lines t, Wordless line)
    (hplain : Plain t) :
    Outcome t (w.wrapAround (Markers.code.separator.cuts t).1 (Markers.code.separator.cuts t).2) := by
  have hcr := hplain.not_mem_return
  generalize hn : t.length = n
  induction n using Nat.strong_induction_on generalizing t with
  | _ n ih =>
    by_cases hlf : '\n' ∈ t
    · obtain ⟨a, u, rfl, ha⟩ := List.eq_append_cons_of_mem hlf
      have hwa : Wordless a := by
        refine hlines a ?_
        rw [Text.lines_append, Text.lines_eq_singleton ha]
        exact List.mem_cons_self
      by_cases hlf' : '\n' ∈ u
      · -- a separator starts at the first line feed
        obtain ⟨b, c, rfl, hb⟩ := List.eq_append_cons_of_mem hlf'
        have hwb : Wordless b := by
          refine hlines b ?_
          rw [Text.lines_append, Text.lines_append, Text.lines_eq_singleton hb]
          simp
        obtain ⟨x, rest, hsplit, hcuts⟩ := Markers.exists_cut_of_wordless ha hwb hcr
        have hsplit' : a ++ '\n' :: (b ++ '\n' :: c) = a ++ ('\n' :: (x ++ ['\n']) ++ rest) := by
          rw [hsplit]
          simp
        have hrest : ∀ line ∈ Text.lines rest, Wordless line := by
          intro line hline
          refine hlines line ?_
          rw [hsplit, Text.lines_append, Text.lines_append]
          exact List.mem_append_right _ (List.mem_append_right _ hline)
        have hsub : ∀ d ∈ rest, d ∈ a ++ '\n' :: (b ++ '\n' :: c) := by
          intro d hd
          rw [hsplit']
          simp [hd]
        have hlen : rest.length < n := by
          rw [← hn, hsplit']
          simp only [List.length_append, List.length_cons]
          omega
        have hlater := ih rest.length hlen hrest (hplain.mono fun d hd => .inr (hsub d hd))
          (fun h => hcr (hsub _ h)) rfl
        rw [hcuts, wrapAround, List.append_assoc, hsplit']
        rw [hsplit'] at hcuts
        exact outcome_cons hw hwa ha (by simp) hcuts hlater
      · have hbreak : ∀ c ∈ a ++ u, isBreak c = false := by
          intro c hc
          have h₁ : c ≠ '\n' := by
            rintro rfl
            exact (List.mem_append.mp hc).elim ha hlf'
          have h₂ : c ≠ '\r' := by
            rintro rfl
            exact hcr (by simp_all)
          simp [isBreak, h₁, h₂]
        have hcuts : Markers.code.separator.cuts (a ++ '\n' :: u) = ([], a ++ '\n' :: u) := by
          refine Markers.cuts_separator_of_few hcr fun x y z h => ?_
          have hcount := congrArg (List.count '\n') h
          simp only [List.count_append, List.count_cons_self, List.count_eq_zero.mpr ha,
            List.count_eq_zero.mpr hlf'] at hcount
          omega
        refine (congrArg (Outcome _) ?_).mpr (outcome_pair hw hwa (hlines u ?_) hbreak hplain.not_mem_tabMark hcuts)
        · rw [hcuts, wrapAround_nil]
        · rw [Text.lines_append, Text.lines_eq_singleton hlf']
          simp
    · have hcuts : Markers.code.separator.cuts t = ([], t) :=
        Markers.cuts_separator_of_few hcr fun x y z h => hlf (by rw [h]; simp)
      rw [Text.lines_eq_singleton hlf] at hlines
      rw [hcuts, wrapAround_nil]
      exact outcome_line hw (hlines t List.mem_cons_self) hlf hcuts

/-- A text of wordless lines is wrapped to itself just if no line is left between the separators. -/
theorem wrap_eq_self_iff_of_wordless (hw : w.markers = .code)
    (hlines : ∀ line ∈ Text.lines t, Wordless line) (hplain : Plain t) : w.wrap t = t ↔ Kept t := by
  have houtcome := outcome_wrapAround hw hlines hplain
  rw [wrap_eq_wrapExpanded hplain, wrapExpanded_eq, hw]
  constructor
  · intro h
    by_contra hkept
    have h₁ := houtcome.grown hkept
    have h₂ := length_le_length_closeLike t
      (w.wrapAround (Markers.code.separator.cuts t).1 (Markers.code.separator.cuts t).2)
    rw [h] at h₂
    omega
  · intro hkept
    exact (houtcome.kept hkept).1

theorem wrap_slashes_ne : Wrapper.code.wrap "//".toList ≠ "//".toList := by
  have hlines : ∀ line ∈ Text.lines "//".toList, Wordless line := by
    rintro _ (_ | ⟨_, ⟨⟩⟩)
    exact ⟨[], _, rfl, rfl, _, [], [], rfl, .inr (.slashes 0), rfl, .inl rfl⟩
  have hcuts : Markers.code.separator.cuts "//".toList = ([], "//".toList) :=
    Markers.cuts_separator_of_few (by decide) fun x y z h => by
      have hmem : '\n' ∈ "//".toList := by
        rw [h]
        exact List.mem_append_right _ List.mem_cons_self
      exact absurd hmem (by decide)
  intro h
  have hkept := (wrap_eq_self_iff_of_wordless rfl hlines (by decide)).mp h
  rcases (kept_iff_of_nil hcuts).mp hkept with hnil | ⟨a, b, hab, -⟩
  · cases hnil
  · cases hab

end Wrapper

end Reflow
