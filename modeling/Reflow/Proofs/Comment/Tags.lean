import Mathlib
import Reflow.Proofs.Break.Lines
import Reflow.Proofs.Comment.Line
import Reflow.Proofs.Text.LineEnding

/-!
# Break tags in a text

How many tags that break a paragraph a text holds (`countTags`), of those without a blank.  A tag lies across no
white space and no control character, so the tags of a text are those of its lines (`sum_countTags_split`), and those
of a line are the one that its indent may end in and those of its words (`Leads.countTags_splitLine`).
-/

namespace Reflow

variable {t u x y g line : Text} {c : Char} {ls : List Text}

/-- The tags that break a paragraph and hold no blank. -/
def tightTags : List Text :=
  ["<p>", "<P>", "<br>", "<bR>", "<Br>", "<BR>", "<br/>", "<bR/>", "<Br/>", "<BR/>"].map String.toList

def startsTag (t : Text) : Bool :=
  tightTags.any (·.isPrefixOf t)

/-- How many such tags a text holds. -/
def countTags : Text → Nat
  | [] => 0
  | c :: t => (if startsTag (c :: t) then 1 else 0) + countTags t

theorem mem_tightTags_iff : g ∈ tightTags ↔ BreakTag g ∧ ' ' ∉ g := by
  constructor
  · intro h
    refine ⟨?_, (by decide : ∀ g ∈ tightTags, ' ' ∉ g) g h⟩
    simp only [tightTags, List.map_cons, List.map_nil, List.mem_cons, List.not_mem_nil, or_false] at h
    rcases h with rfl | rfl | rfl | rfl | rfl | rfl | rfl | rfl | rfl | rfl
    · exact .paragraph (.inl rfl)
    · exact .paragraph (.inr rfl)
    · exact .line (.inl rfl) (.inl rfl) (.inl rfl) (.inl rfl)
    · exact .line (.inl rfl) (.inr rfl) (.inl rfl) (.inl rfl)
    · exact .line (.inr rfl) (.inl rfl) (.inl rfl) (.inl rfl)
    · exact .line (.inr rfl) (.inr rfl) (.inl rfl) (.inl rfl)
    · exact .line (.inl rfl) (.inl rfl) (.inl rfl) (.inr rfl)
    · exact .line (.inl rfl) (.inr rfl) (.inl rfl) (.inr rfl)
    · exact .line (.inr rfl) (.inl rfl) (.inl rfl) (.inr rfl)
    · exact .line (.inr rfl) (.inr rfl) (.inl rfl) (.inr rfl)
  · rintro ⟨hg, hspace⟩
    cases hg with
    | paragraph hp => rcases hp with rfl | rfl <;> decide
    | line hb hr hspace' hslash =>
      rcases hspace' with rfl | rfl
      · rcases hb with rfl | rfl <;> rcases hr with rfl | rfl <;> rcases hslash with rfl | rfl <;> decide
      · simp at hspace

theorem startsTag_iff : startsTag t = true ↔ ∃ g ∈ tightTags, g <+: t := by
  simp only [startsTag, List.any_eq_true, List.isPrefixOf_iff_prefix]

/-! ## Tags in two texts together -/

theorem startsTag_cons_of_ne (h : c ≠ '<') : startsTag (c :: t) = false := by
  refine Bool.eq_false_iff.mpr fun hstarts => ?_
  obtain ⟨g, hg, hprefix⟩ := startsTag_iff.mp hstarts
  obtain ⟨g', rfl⟩ := (mem_tightTags_iff.mp hg).1.exists_cons
  exact h (List.cons_prefix_cons.mp hprefix).1.symm

theorem countTags_cons_of_ne (h : c ≠ '<') : countTags (c :: t) = countTags t := by
  rw [countTags, startsTag_cons_of_ne h, if_neg Bool.false_ne_true, Nat.zero_add]

theorem countTags_append_of_not_mem (h : '<' ∉ x) : countTags (x ++ y) = countTags y := by
  induction x with
  | nil => rfl
  | cons c x ih =>
    rw [List.mem_cons, not_or] at h
    rw [List.cons_append, countTags_cons_of_ne (Ne.symm h.1), ih h.2]

theorem countTags_eq_zero (h : '<' ∉ t) : countTags t = 0 := by
  rw [← List.append_nil t, countTags_append_of_not_mem h, countTags]

/-- What stands in no tag parts the tags of a text. -/
theorem prefix_append_cons_iff (hc : c ∉ g) : g <+: x ++ c :: y ↔ g <+: x := by
  constructor
  · rintro ⟨r, hr⟩
    rcases append_eq_append_cons hr with ⟨e, rfl, -⟩ | ⟨e, rfl, -⟩
    · exact List.prefix_append _ _
    · simp at hc
  · exact fun h => h.trans (List.prefix_append _ _)

theorem countTags_append_cons (hc : ∀ g ∈ tightTags, c ∉ g) :
    countTags (x ++ c :: y) = countTags x + countTags y := by
  have hne : c ≠ '<' := by
    rintro rfl
    exact hc "<p>".toList (by decide) (by decide)
  induction x with
  | nil => rw [List.nil_append, countTags_cons_of_ne hne, countTags, Nat.zero_add]
  | cons d x ih =>
    have hstarts : startsTag (d :: (x ++ c :: y)) = startsTag (d :: x) := by
      rw [Bool.eq_iff_iff, startsTag_iff, startsTag_iff]
      exact exists_congr fun g => and_congr_right fun hg => prefix_append_cons_iff (x := d :: x) (hc g hg)
    rw [List.cons_append, countTags, ih, hstarts, countTags, Nat.add_assoc]

/-- A tag is no part of a longer one. -/
theorem BreakTag.startsTag_append (h : BreakTag g) : startsTag (g ++ t) = true ↔ ' ' ∉ g := by
  rw [startsTag_iff]
  constructor
  · rintro ⟨g', hg', r, hr⟩
    obtain ⟨htag, hspace⟩ := mem_tightTags_iff.mp hg'
    rwa [(List.append_inj hr (htag.length_eq h hr)).1] at hspace
  · exact fun hspace => ⟨g, mem_tightTags_iff.mpr ⟨h, hspace⟩, List.prefix_append _ _⟩

theorem BreakTag.countTags_append (h : BreakTag g) : countTags (g ++ t) = (if ' ' ∈ g then 0 else 1) + countTags t := by
  have hstarts := h.startsTag_append (t := t)
  obtain ⟨g', rfl, hopen⟩ : ∃ g', g = '<' :: g' ∧ '<' ∉ g' := by
    cases h with
    | paragraph hp => exact ⟨_, rfl, by rcases hp with rfl | rfl <;> decide⟩
    | line hb hr hspace hslash =>
      refine ⟨_, rfl, ?_⟩
      rcases hb with rfl | rfl <;> rcases hr with rfl | rfl <;> rcases hspace with rfl | rfl <;>
        rcases hslash with rfl | rfl <;> decide
  rw [List.cons_append] at hstarts ⊢
  rw [countTags, countTags_append_of_not_mem hopen]
  by_cases hspace : ' ' ∈ '<' :: g' <;> simp_all

/-! ## Tags of lines -/

theorem countTags_join (hc : ∀ g ∈ tightTags, c ∉ g) (ls : List Text) :
    countTags (Text.join c ls) = (ls.map countTags).sum := by
  induction ls with
  | nil => rfl
  | cons line ls ih =>
    rcases eq_or_ne ls [] with rfl | hne
    · simp
    · rw [Text.join_cons hne, countTags_append_cons hc, ih, List.map_cons, List.sum_cons]

theorem sum_countTags_split {sep : Char → Bool} (hsep : ∀ c, sep c = true → ∀ g ∈ tightTags, c ∉ g) (t : Text) :
    ((Text.split sep t).map countTags).sum = countTags t := by
  generalize hn : t.length = n
  induction n using Nat.strong_induction_on generalizing t with
  | _ n ih =>
    rcases Text.split_cases sep t with hall | ⟨first, c, rest, rfl, hc, hfirst⟩
    · rw [Text.split_eq_singleton hall]
      simp
    · have hlt : rest.length < n := by
        rw [← hn, List.length_append, List.length_cons]
        omega
      rw [Text.split_append hc, Text.split_eq_singleton hfirst, List.map_append, List.sum_append, ih _ hlt rest rfl,
        countTags_append_cons (hsep c hc)]
      simp

theorem Break.Breaks.sum_countTags (h : Break.Breaks t ls) : (ls.map countTags).sum = countTags t := by
  have hspace : ∀ g ∈ tightTags, ' ' ∉ g := by decide
  induction h with
  | last line => simp
  | skip h ih => rw [ih, countTags_cons_of_ne (by decide)]
  | cons line h ih => rw [List.map_cons, List.sum_cons, ih, countTags_append_cons hspace]

theorem not_mem_of_all {p : Char → Bool} (hp : (tightTags.all fun g => g.all fun c => !p c) = true) (h : p c = true) :
    ∀ g ∈ tightTags, c ∉ g := by
  intro g hg hc
  have hnot := List.all_eq_true.mp (List.all_eq_true.mp hp g hg) c hc
  rw [h] at hnot
  cases hnot

theorem not_mem_of_isControl (h : isControl c = true) : ∀ g ∈ tightTags, c ∉ g :=
  not_mem_of_all (by decide) h

theorem not_mem_of_isBreak (h : isBreak c = true) : ∀ g ∈ tightTags, c ∉ g :=
  not_mem_of_all (by decide) h

theorem countTags_strip (t : Text) : countTags (Text.strip isControl t) = countTags t := by
  obtain ⟨a, b, ht, ha, hb⟩ := Text.exists_strip isControl t
  have hopen : ∀ {u : Text}, (∀ c ∈ u, isControl c = true) → '<' ∉ u := fun hu hmem => by cases hu _ hmem
  conv => rhs; rw [ht, countTags_append_of_not_mem (hopen ha)]
  cases b with
  | nil => rw [List.append_nil]
  | cons c b =>
    rw [List.forall_mem_cons] at hb
    rw [countTags_append_cons (not_mem_of_isControl hb.1), countTags_eq_zero (hopen hb.2), Nat.add_zero]

theorem countTags_chop (line : Text) : countTags (LineEnding.chop line) = countTags line := by
  by_cases h : line.getLast? = some '\r'
  · conv => rhs; rw [← LineEnding.chop_append_iff.mpr h]
    rw [countTags_append_cons (not_mem_of_isBreak rfl), countTags, Nat.add_zero]
  · rw [LineEnding.chop_eq_self_iff.mpr h]

theorem countTags_normalize (t : Text) : countTags (LineEnding.normalize t) = countTags t := by
  have hfeed : ∀ c, decide (c = '\n') = true → ∀ g ∈ tightTags, c ∉ g :=
    fun c hc => not_mem_of_isBreak (by rw [of_decide_eq_true hc]; rfl)
  calc countTags (LineEnding.normalize t)
      = ((Text.lines (LineEnding.normalize t)).map countTags).sum := (sum_countTags_split hfeed _).symm
    _ = (((Text.upper t).map LineEnding.chop ++ [Text.lastLine t]).map countTags).sum := by
      rw [LineEnding.lines_normalize]
    _ = ((Text.upper t ++ [Text.lastLine t]).map countTags).sum := by
      have hchop : countTags ∘ LineEnding.chop = countTags := funext countTags_chop
      rw [List.map_append, List.map_map, hchop, ← List.map_append]
    _ = ((Text.lines t).map countTags).sum := by rw [← Text.lines_eq_upper]
    _ = countTags t := sum_countTags_split hfeed t

/-! ## Tags in front of words -/

/-- The text after an indent adds its tags to the one that the indent may end in. -/
theorem IndentOf.countTags_append {leads : Text → Prop} (hleads : ∀ {l}, leads l → ∀ c ∈ l, isLeaderChar c = true)
    (h : IndentOf leads x) : countTags x ≤ 1 ∧ ∀ y, countTags (x ++ y) = countTags x + countTags y := by
  obtain ⟨u, g, rfl, hopen, hg⟩ := h.exists_tag hleads
  have hfront : ∀ y, countTags (u ++ g ++ y) = countTags (g ++ y) := by
    intro y
    rw [List.append_assoc, countTags_append_of_not_mem hopen]
  have hself := hfront []
  rw [List.append_nil, List.append_nil] at hself
  rw [hself]
  rcases hg with hg | ⟨rfl, -⟩
  · have hnil := hg.countTags_append (t := [])
    rw [List.append_nil, countTags, Nat.add_zero] at hnil
    refine ⟨?_, fun y => by rw [hfront y, hg.countTags_append, hnil]⟩
    rw [hnil]
    split <;> decide
  · exact ⟨Nat.zero_le _, fun y => by rw [hfront y, countTags, Nat.zero_add, List.nil_append]⟩

theorem Leads.countTags_splitLine {leader : Pattern} {leads : Text → Prop} (h : Leads leader leads)
    (hbreak : ∀ c ∈ line, isBreak c = false) :
    countTags line = countTags ((Markers.ofLeader leader).splitLine line).indent +
      countTags ((Markers.ofLeader leader).splitLine line).rest := by
  obtain ⟨m, r, hlongest⟩ := h.exists_longest_indent line
  obtain ⟨hsplit, hindent, -⟩ := h.longest_indent_iff.mp hlongest
  rw [h.splitLine_of_longest hlongest hbreak, countTags_strip,
    ← (hindent.countTags_append h.isLeaderChar_of_mem).2, ← hsplit]

end Reflow
