import Reflow.Proofs.Comment.Separator
import Reflow.Proofs.Comment.Stretches
import Reflow.Proofs.Text.Lines

/-!
# Spaces for the marks of tabs

The text with a space for every mark of a tab (`spaced`) looks different to some of the patterns, which
know the marks as little as other characters.  Where marks stand only in front of a line (`Leading`), an
indent is still an indent (`indent_spaced_iff`) and what follows it is the same (`Markers.splitLine_spaced`).
-/

namespace Reflow

/-- A space for the mark of a tab. -/
def unmark (c : Char) : Char :=
  if c = tabMark then ' ' else c

def spaced (t : Text) : Text :=
  t.map unmark

variable {t u a r l m : Text} {c : Char}

/-! ## Characters -/

theorem unmark_of_ne (h : c ≠ tabMark) : unmark c = c :=
  if_neg h

theorem unmark_ne (c : Char) : unmark c ≠ tabMark := by
  by_cases h : c = tabMark
  · rw [h]
    decide
  · rwa [unmark_of_ne h]

theorem isBreak_unmark (c : Char) : isBreak (unmark c) = isBreak c := by
  by_cases h : c = tabMark
  · rw [h]
    decide
  · rw [unmark_of_ne h]

theorem unmark_eq_lf_iff : unmark c = '\n' ↔ c = '\n' := by
  by_cases h : c = tabMark
  · rw [h]
    decide
  · rw [unmark_of_ne h]

theorem unmark_eq_cr_iff : unmark c = '\r' ↔ c = '\r' := by
  by_cases h : c = tabMark
  · rw [h]
    decide
  · rw [unmark_of_ne h]

theorem isFiller_unmark (c : Char) : isFiller (unmark c) = isFiller c := by
  by_cases h : c = tabMark
  · rw [h]
    decide
  · rw [unmark_of_ne h]

theorem isBlank_of_isFiller (h : isFiller c = true) (hne : c ≠ tabMark) : isBlank c = true := by
  simpa [isFiller, hne] using h

theorem spaced_append (t u : Text) : spaced (t ++ u) = spaced t ++ spaced u :=
  List.map_append

theorem length_spaced (t : Text) : (spaced t).length = t.length :=
  List.length_map _

theorem spaced_eq_self (h : tabMark ∉ t) : spaced t = t := by
  have hid : t.map unmark = t.map id := List.map_congr_left fun c hc => unmark_of_ne fun hmark => h (hmark ▸ hc)
  rw [spaced, hid, List.map_id]

theorem not_mem_spaced (t : Text) : tabMark ∉ spaced t := by
  intro h
  obtain ⟨c, -, hc⟩ := List.mem_map.mp h
  exact unmark_ne c hc

theorem mem_of_mem_spaced (h : c ∈ spaced t) : c = ' ' ∨ c ∈ t := by
  obtain ⟨d, hd, rfl⟩ := List.mem_map.mp h
  by_cases hmark : d = tabMark
  · rw [hmark]
    exact .inl rfl
  · rw [unmark_of_ne hmark]
    exact .inr hd

theorem blank_spaced (h : t.all isFiller = true) : Blank (spaced t) := by
  apply List.all_eq_true.mpr
  intro c hc
  obtain ⟨d, hd, rfl⟩ := List.mem_map.mp hc
  apply isBlank_of_isFiller _ (unmark_ne d)
  rw [isFiller_unmark]
  exact List.all_eq_true.mp h d hd

theorem filter_spaced {p : Char → Bool} (h : ∀ c, p (unmark c) = p c) (t : Text) :
    (spaced t).filter p = spaced (t.filter p) := by
  rw [spaced, List.filter_map, spaced]
  congr 1
  exact List.filter_congr fun c _ => h c

theorem split_spaced {sep : Char → Bool} (h : ∀ c, sep (unmark c) = sep c) (t : Text) :
    Text.split sep (spaced t) = (Text.split sep t).map spaced := by
  induction t with
  | nil => rfl
  | cons c t ih =>
    show Text.split sep (unmark c :: spaced t) = _
    rw [Text.split, ih, Text.split, h]
    cases Text.split sep t with
    | nil => rfl
    | cons piece pieces =>
      show (if sep c then [] :: spaced piece :: pieces.map spaced
        else (unmark c :: spaced piece) :: pieces.map spaced) = _
      split <;> rfl

theorem lines_spaced (t : Text) : Text.lines (spaced t) = (Text.lines t).map spaced := by
  apply split_spaced
  intro c
  rw [decide_eq_decide]
  exact unmark_eq_lf_iff

theorem fields_spaced (t : Text) : Text.fields isBreak (spaced t) = (Text.fields isBreak t).map spaced := by
  rw [Text.fields, split_spaced isBreak_unmark, List.filter_map, Text.fields]
  congr 1
  apply List.filter_congr
  intro piece _
  cases piece <;> rfl

/-! ## Indents -/

def Leading (t : Text) : Prop :=
  ∃ a r, t = a ++ r ∧ a.all isFiller = true ∧ tabMark ∉ r

theorem Wordless.not_mem (h : Wordless t) : tabMark ∉ t := by
  obtain ⟨a, m, rfl, ha, hm⟩ := h
  rw [List.mem_append, not_or]
  exact ⟨fun hmem => absurd (isBlank_of_mem ha hmem) (by decide), hm.not_mem⟩

theorem Indent.spaced (h : Indent t) : Indent (spaced t) := by
  obtain ⟨a, m, rfl, ha, hm⟩ := h
  rw [spaced_append, spaced_eq_self hm.not_mem]
  exact ⟨_, m, rfl, all_isFiller_of_blank (blank_spaced ha), hm⟩

theorem Marks.of_append_blank (ha : Blank a) (h : Marks (a ++ r)) : Marks r := by
  induction a with
  | nil => exact h
  | cons c a ih =>
    rw [blank_cons] at ha
    apply ih ha.2
    obtain ⟨k, b, g, heq, hk, hb, hg⟩ := h
    have hnil : k = [] := by
      rcases hk with hk | hk
      · exact hk
      · obtain ⟨d, k, rfl⟩ := List.exists_cons_of_ne_nil hk.ne_nil
        obtain ⟨rfl, -⟩ := List.cons.inj heq
        have hc := not_isBlank_of_not_isFiller (not_isFiller_of_isLeaderChar (hk.isLeaderChar List.mem_cons_self))
        rw [ha.1] at hc
        cases hc
    rw [hnil, List.nil_append] at heq
    cases b with
    | nil =>
      -- the tag does not begin with white space
      rcases hg with rfl | hg
      · cases heq
      · obtain ⟨g', rfl⟩ := hg.exists_cons
        obtain ⟨rfl, -⟩ := List.cons.inj heq
        exact absurd ha.1 (by decide)
    | cons d b =>
      obtain ⟨-, heq⟩ := List.cons.inj heq
      exact ⟨[], b, g, heq, .inl rfl, (blank_cons.mp hb).2, hg⟩

theorem Leading.of_append (h : Leading (t ++ u)) : Leading t := by
  obtain ⟨a, r, heq, ha, hr⟩ := h
  rcases List.append_eq_append_iff.mp heq with ⟨e, rfl, rfl⟩ | ⟨e, rfl, rfl⟩
  · rw [List.all_append, Bool.and_eq_true] at ha
    exact ⟨t, [], (List.append_nil t).symm, ha.1, List.not_mem_nil⟩
  · exact ⟨a, e, rfl, ha, fun hmem => hr (List.mem_append_left _ hmem)⟩

/-- Spaces for the marks of tabs in front make no difference to an indent. -/
theorem indent_spaced_iff (h : Leading t) : Indent (spaced t) ↔ Indent t := by
  constructor
  · obtain ⟨a, r, rfl, ha, hr⟩ := h
    rintro ⟨x, m, heq, hx, hm⟩
    rw [spaced_append, spaced_eq_self hr] at heq
    apply Indent.append ha
    rcases List.append_eq_append_iff.mp heq with ⟨e, rfl, rfl⟩ | ⟨e, he, rfl⟩
    · rw [List.all_append, Bool.and_eq_true] at hx
      exact ⟨e, m, rfl, hx.2, hm⟩
    · have hblank := blank_spaced ha
      rw [he, blank_append] at hblank
      exact ⟨[], r, rfl, rfl, hm.of_append_blank hblank.2⟩
  · exact Indent.spaced

namespace Markers

open Pattern

theorem longest_indent_spaced (h : Leading l) (hlongest : LongestAt code.indent none l m r) :
    LongestAt code.indent none (spaced l) (spaced m) r ∧ tabMark ∉ r := by
  obtain ⟨rfl, hindent, hle⟩ := longest_indent_iff.mp hlongest
  have hr : tabMark ∉ r := by
    obtain ⟨a, r', heq, ha, hr'⟩ := h
    have hlen := hle a r' heq (List.append_nil a ▸ Indent.append ha Indent.nil)
    rcases List.append_eq_append_iff.mp heq with ⟨e, he, hr⟩ | ⟨e, he, hr⟩
    · have := congrArg List.length he
      rw [List.length_append] at this
      have hnil : e = [] := List.eq_nil_of_length_eq_zero (by omega)
      rw [hr, hnil]
      exact hr'
    · rw [hr] at hr'
      exact fun hmem => hr' (List.mem_append_right _ hmem)
  refine ⟨longest_indent_iff.mpr ⟨?_, hindent.spaced, ?_⟩, hr⟩
  · rw [spaced_append, spaced_eq_self hr]
  · intro n' rest' hsplit hn'
    obtain ⟨n, rest, heq, rfl, -⟩ := List.map_eq_append_iff.mp hsplit
    rw [heq] at h
    rw [length_spaced, List.length_map]
    exact hle n rest heq ((indent_spaced_iff h.of_append).mp hn')

theorem splitLine_spaced (h : Leading l) :
    (code.splitLine (spaced l)).indent = spaced (code.splitLine l).indent ∧
    (code.splitLine (spaced l)).rest = (code.splitLine l).rest := by
  obtain ⟨m, r, hlongest⟩ := exists_longest_indent l
  obtain ⟨hlongest', -⟩ := longest_indent_spaced h hlongest
  rw [splitLine_eq hlongest, splitLine_eq hlongest']
  refine ⟨filter_spaced ?_ m, rfl⟩
  intro c
  rw [isBreak_unmark]

theorem exists_indent_append (h : Leading l) (hbreak : ∀ c ∈ l, isBreak c = false) :
    ∃ r, l = (code.splitLine l).indent ++ r ∧ tabMark ∉ r := by
  obtain ⟨m, r, hlongest⟩ := exists_longest_indent l
  obtain ⟨-, hr⟩ := longest_indent_spaced h hlongest
  refine ⟨r, ?_, hr⟩
  rw [indent_splitLine_of_longest hlongest hbreak]
  exact hlongest.split

theorem not_mem_rest (h : Leading l) : tabMark ∉ (code.splitLine l).rest := by
  obtain ⟨m, r, hlongest⟩ := exists_longest_indent l
  obtain ⟨-, hr⟩ := longest_indent_spaced h hlongest
  rw [splitLine_eq hlongest]
  exact fun hmem => hr (Text.mem_of_mem_strip hmem)

end Markers

end Reflow
