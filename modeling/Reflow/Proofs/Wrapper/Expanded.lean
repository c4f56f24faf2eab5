import Reflow.Proofs.Comment.Bare
import Reflow.Proofs.Wrapper.Spelling

/-!
# Spelling out the tabs of a line

A line with words still has words when its tabs are spelled out (`Wrapper.exists_word_of_expandTabs`):
the marks of tabs are taken for white space in front of the leader only, so that the indent of the
line does not get longer.
-/

namespace Reflow

namespace Wrapper

variable {w : Wrapper} {t n rest : Text} {c : Char}

theorem expandTabs_cons_of_ne (hc : c ≠ '\t') : w.expandTabs (c :: t) = c :: w.expandTabs t := by
  rw [expandTabs, List.flatMap_cons, if_neg hc]
  rfl

theorem expandTabs_cons_tab :
    w.expandTabs ('\t' :: t) = List.replicate w.options.tabWidth tabMark ++ w.expandTabs t := rfl

theorem mem_expandTabs (hc : c ≠ '\t') (h : c ∈ t) : c ∈ w.expandTabs t :=
  List.mem_flatMap.mpr ⟨c, h, by simp [hc]⟩

theorem exists_indent_cons_tab {a e m : Text}
    (ih : ∀ a : Text, w.expandTabs t = a ++ (m ++ rest) → a.all isFiller = true →
      ∃ n rest', t = n ++ rest' ∧ Indent n ∧ (a ++ m).length ≤ (w.expandTabs n).length)
    (he : a = List.replicate w.options.tabWidth tabMark ++ e) (ha : a.all isFiller = true)
    (hlater : w.expandTabs t = e ++ (m ++ rest)) :
    ∃ n rest', '\t' :: t = n ++ rest' ∧ Indent n ∧ (a ++ m).length ≤ (w.expandTabs n).length := by
  rw [he, List.all_append, Bool.and_eq_true] at ha
  obtain ⟨n, rest', rfl, hindent, hle⟩ := ih e hlater ha.2
  refine ⟨'\t' :: n, rest', rfl, hindent.cons (by decide), ?_⟩
  rw [he, expandTabs_cons_tab]
  simp only [List.length_append] at hle ⊢
  omega

section

variable (htab : 0 < w.options.tabWidth)

include htab

theorem exists_append_of_expandTabs (h : w.expandTabs t = n ++ rest) (hn : tabMark ∉ n) :
    ∃ rest', t = n ++ rest' := by
  induction n generalizing t with
  | nil => exact ⟨t, rfl⟩
  | cons d n ih =>
    rw [List.mem_cons, not_or] at hn
    cases t with
    | nil => cases h
    | cons c t =>
      by_cases hc : c = '\t'
      · obtain ⟨k, hk⟩ := Nat.exists_eq_succ_of_ne_zero (Nat.ne_of_gt htab)
        rw [hc, expandTabs_cons_tab, hk, List.replicate_succ] at h
        exact absurd (List.cons.inj h).1 hn.1
      · rw [expandTabs_cons_of_ne hc] at h
        obtain ⟨hcd, htail⟩ := List.cons.inj h
        obtain ⟨rest', rfl⟩ := ih htail hn.2
        exact ⟨rest', by rw [hcd]; rfl⟩

theorem length_le_length_expandTabs (t : Text) : t.length ≤ (w.expandTabs t).length := by
  induction t with
  | nil => exact Nat.zero_le _
  | cons c t ih =>
    by_cases hc : c = '\t'
    · rw [hc, expandTabs_cons_tab, List.length_append, List.length_replicate, List.length_cons]
      omega
    · rw [expandTabs_cons_of_ne hc, List.length_cons, List.length_cons]
      omega

theorem exists_indent_of_expandTabs (h : w.expandTabs t = n ++ rest) (hn : Indent n) :
    ∃ m rest', t = m ++ rest' ∧ Indent m ∧ n.length ≤ (w.expandTabs m).length := by
  obtain ⟨a, m, rfl, ha, hm⟩ := hn
  rw [List.append_assoc] at h
  induction t generalizing a with
  | nil =>
    obtain ⟨ha', hrest⟩ := List.append_eq_nil_iff.mp h.symm
    exact ⟨[], [], rfl, Indent.nil, by simp [ha', (List.append_eq_nil_iff.mp hrest).1]⟩
  | cons c t ih =>
    cases a with
    | nil =>
      obtain ⟨rest', hrest⟩ := exists_append_of_expandTabs (n := m) htab h hm.not_mem
      exact ⟨m, rest', hrest, ⟨[], m, rfl, rfl, hm⟩, length_le_length_expandTabs htab m⟩
    | cons d a =>
      by_cases hc : c = '\t'
      · subst hc
        rw [expandTabs_cons_tab] at h
        rcases List.append_eq_append_iff.mp h with ⟨e, he, hlater⟩ | ⟨_ | ⟨x, e⟩, he, hlater⟩
        · exact exists_indent_cons_tab ih he ha hlater
        · exact exists_indent_cons_tab ih (e := []) (by simpa using he.symm) ha hlater.symm
        · -- the indent ends among the columns of the tab
          have hm' : m = [] := by
            cases m with
            | nil => rfl
            | cons y m =>
              obtain ⟨rfl, -⟩ := List.cons.inj hlater
              have hmem : y ∈ List.replicate w.options.tabWidth tabMark := by
                rw [he]
                simp
              rw [List.eq_of_mem_replicate hmem] at hm
              exact absurd List.mem_cons_self hm.not_mem
          refine ⟨['\t'], t, rfl, Indent.nil.cons (by decide), ?_⟩
          have hlen := congrArg List.length he
          rw [List.length_append, List.length_replicate] at hlen
          rw [hm', expandTabs_cons_tab]
          simp only [List.length_append, List.length_replicate, List.length_nil]
          omega
      · rw [expandTabs_cons_of_ne hc, List.cons_append] at h
        obtain ⟨rfl, hlater⟩ := List.cons.inj h
        rw [List.all_cons, Bool.and_eq_true] at ha
        obtain ⟨m', rest', rfl, hindent, hle⟩ := ih a hlater ha.2
        refine ⟨c :: m', rest', rfl, hindent.cons ha.1, ?_⟩
        rw [expandTabs_cons_of_ne hc, List.cons_append, List.length_cons, List.length_cons]
        omega

theorem exists_word_of_expandTabs {line : Text} (h : Markers.code.isBare line = false) :
    ∃ c ∈ (Markers.code.splitLine (w.expandTabs line)).rest, isBlank c = false := by
  obtain ⟨m, r, hlongest⟩ := Markers.exists_longest_indent line
  obtain ⟨n, r', hlongest'⟩ := Markers.exists_longest_indent (w.expandTabs line)
  obtain ⟨c, hc, hblank⟩ := exists_word_of_not_isBare h
  rw [Markers.splitLine_eq hlongest] at hc
  rw [Markers.splitLine_eq hlongest']
  refine ⟨c, ?_, hblank⟩
  obtain ⟨hsplit, -, hle⟩ := Markers.longest_indent_iff.mp hlongest
  obtain ⟨hsplit', hindent, -⟩ := Markers.longest_indent_iff.mp hlongest'
  -- the indent gets no longer than its tabs spelled out
  obtain ⟨m', rest, hm', hindent', hlen⟩ := exists_indent_of_expandTabs htab hsplit' hindent
  have hlen' : m'.length ≤ m.length := hle m' rest hm' hindent'
  obtain ⟨e, he⟩ : ∃ e, r' = e ++ w.expandTabs r := by
    obtain ⟨d, rfl⟩ : ∃ d, m = m' ++ d := by
      rcases List.append_eq_append_iff.mp (hm'.symm.trans hsplit) with ⟨d, hd, -⟩ | ⟨d, hd, -⟩
      · exact ⟨d, hd⟩
      · have := congrArg List.length hd
        rw [List.length_append] at this
        exact ⟨[], by rw [hd, List.eq_nil_of_length_eq_zero (l := d) (by omega)]; simp⟩
    rw [hsplit, List.append_assoc, expandTabs_append] at hsplit'
    rcases List.append_eq_append_iff.mp hsplit' with ⟨f, hf, hr⟩ | ⟨f, hf, hr⟩
    · have := congrArg List.length hf
      rw [List.length_append] at this
      rw [List.eq_nil_of_length_eq_zero (l := f) (by omega), List.nil_append] at hr
      exact ⟨w.expandTabs d, by rw [← hr, expandTabs_append]⟩
    · exact ⟨f ++ w.expandTabs d, by rw [hr, expandTabs_append, List.append_assoc]⟩
  have hne : ∀ d, isControl d = false → d ≠ '\t' := by
    rintro d hd rfl
    cases hd
  obtain ⟨x, y, hxy, hx, hy⟩ := Text.exists_around_of_mem_strip hc
  have hctab : c ≠ '\t' := by
    rintro rfl
    exact absurd hblank (by decide)
  rw [he, hxy, expandTabs_append, expandTabs_cons_of_ne hctab, ← List.append_assoc]
  refine Text.mem_strip ?_ ?_
  · obtain ⟨d, hd, hcontrol⟩ := hx
    refine ⟨d, ?_, hcontrol⟩
    rcases List.mem_append.mp hd with hd | hd
    · exact List.mem_append_left _ (List.mem_append_right _ (mem_expandTabs (hne d hcontrol) hd))
    · exact List.mem_append_right _ hd
  · obtain ⟨d, hd, hcontrol⟩ := hy
    refine ⟨d, ?_, hcontrol⟩
    rcases List.mem_cons.mp hd with rfl | hd
    · exact List.mem_cons_self
    · exact List.mem_cons_of_mem _ (mem_expandTabs (hne d hcontrol) hd)

end

/-! ## The lines of a text -/

theorem not_isBreak_of_mem_expandTabs (h : ∀ d ∈ t, isBreak d = false) (hc : c ∈ w.expandTabs t) :
    isBreak c = false := by
  obtain ⟨d, hd, hc⟩ := List.mem_flatMap.mp hc
  split at hc
  · rw [List.eq_of_mem_replicate hc]
    decide
  · rw [List.mem_singleton.mp hc]
    exact h d hd

theorem split_expandTabs (t : Text) :
    Text.split isBreak (w.expandTabs t) = (Text.split isBreak t).map w.expandTabs := by
  generalize hn : t.length = n
  induction n using Nat.strong_induction_on generalizing t with
  | _ n ih =>
    rcases Text.split_cases isBreak t with ht | ⟨line, c, rest, rfl, hc, hline⟩
    · rw [Text.split_eq_singleton ht,
        Text.split_eq_singleton fun d hd => not_isBreak_of_mem_expandTabs ht hd]
      rfl
    · have hctab : c ≠ '\t' := by
        rintro rfl
        cases hc
      have hlen : rest.length < n := by
        rw [← hn, List.length_append, List.length_cons]
        omega
      rw [expandTabs_append, expandTabs_cons_of_ne hctab, Text.split_append hc, Text.split_append hc,
        List.map_append, ih rest.length hlen rest rfl, Text.split_eq_singleton hline,
        Text.split_eq_singleton fun d hd => not_isBreak_of_mem_expandTabs hline hd]
      rfl

theorem expandTabs_eq_nil_iff (htab : 0 < w.options.tabWidth) : w.expandTabs t = [] ↔ t = [] := by
  constructor
  · intro h
    have := length_le_length_expandTabs htab t
    rw [h] at this
    exact List.eq_nil_of_length_eq_zero (Nat.le_zero.mp this)
  · rintro rfl
    rfl

theorem closedLines_expandTabs (htab : 0 < w.options.tabWidth) (t : Text) :
    Text.closedLines (w.expandTabs t) = (Text.closedLines t).map w.expandTabs := by
  have hlast : (Text.split isBreak (w.expandTabs t)).getLast? = some [] ↔
      (Text.split isBreak t).getLast? = some [] := by
    rw [split_expandTabs, List.getLast?_map, Option.map_eq_some_iff]
    constructor
    · rintro ⟨line, hline, hnil⟩
      rwa [(expandTabs_eq_nil_iff htab).mp hnil] at hline
    · intro h
      exact ⟨[], h, rfl⟩
  unfold Text.closedLines
  by_cases h : (Text.split isBreak t).getLast? = some []
  · rw [if_pos h, if_pos (hlast.mpr h), split_expandTabs, List.map_dropLast]
  · rw [if_neg h, if_neg (mt hlast.mp h), split_expandTabs]

end Wrapper

end Reflow
