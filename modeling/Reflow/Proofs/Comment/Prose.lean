import Reflow.Proofs.Comment.ListSymbol
import Reflow.Proofs.Comment.Stretches

/-!
# The patterns for prose

In a text that holds nothing a leader or a tag begins with, all that the patterns for prose find is white
space: the indent of a line is the white space in front of it (`Markers.splitLine_prose`), and so are
separators and bare lines.  What is visible of a line is what is visible of its rest.
-/

namespace Reflow

/-- The characters that are not white space. -/
def visible (t : Text) : Text :=
  t.filter fun c => !isBlank c

/-- No tab and no mark for one, nothing that a leader or a tag begins with, and no control character other
than white space. -/
def Unmarked (t : Text) : Prop :=
  ∀ c ∈ t, c ≠ '\t' ∧ c ≠ tabMark ∧ c ≠ '/' ∧ c ≠ '<' ∧ (isControl c = true → isBlank c = true)

instance (t : Text) : Decidable (Unmarked t) :=
  List.decidableBAll _ t

variable {t u : Text} {c : Char}

theorem Unmarked.mono (h : Unmarked t) (hsub : ∀ c ∈ u, c ∈ t) : Unmarked u :=
  fun c hc => h c (hsub c hc)

/-! ## Visible characters -/

theorem visible_append (t u : Text) : visible (t ++ u) = visible t ++ visible u :=
  List.filter_append ..

theorem visible_flatten (ls : List Text) : visible ls.flatten = ls.flatMap visible := by
  rw [visible, List.filter_flatten]
  rfl

theorem visible_eq_nil_iff : visible t = [] ↔ Blank t := by
  rw [visible, List.filter_eq_nil_iff, Blank, List.all_eq_true]
  simp

theorem visible_of_blank (h : Blank t) : visible t = [] :=
  visible_eq_nil_iff.mpr h

theorem visible_eq_self (h : ∀ c ∈ t, isBlank c = false) : visible t = t := by
  apply List.filter_eq_self.mpr
  intro c hc
  rw [h c hc]
  rfl

theorem visible_cons_of_blank (h : isBlank c = true) : visible (c :: t) = visible t := by
  rw [visible, List.filter_cons_of_neg (by simp [h])]
  rfl

theorem visible_filter (t : Text) : visible (t.filter fun c => c ≠ ' ') = visible t := by
  rw [visible, List.filter_filter, visible]
  apply List.filter_congr
  intro c hc
  by_cases hspace : c = ' '
  · rw [hspace]
    decide
  · simp [hspace]

theorem visible_join {sep : Char} (h : isBlank sep = true) (ls : List Text) :
    visible (Text.join sep ls) = ls.flatMap visible := by
  induction ls with
  | nil => rfl
  | cons line ls ih =>
    by_cases hls : ls = []
    · subst hls
      simp
    · rw [Text.join_cons hls, visible_append, visible_cons_of_blank h, ih]
      rfl

theorem visible_fields (t : Text) : (Text.fields isBreak t).flatMap visible = visible t := by
  have hsplit : (Text.split isBreak t).flatMap visible = visible t := by
    generalize hn : t.length = n
    induction n using Nat.strong_induction_on generalizing t with
    | _ n ih =>
      rcases Text.split_cases isBreak t with hall | ⟨first, c, rest, rfl, hc, hfirst⟩
      · rw [Text.split_eq_singleton hall]
        exact List.flatMap_singleton ..
      · have hlen : rest.length < n := by
          rw [← hn, List.length_append, List.length_cons]
          omega
        rw [Text.split_append hc, Text.split_eq_singleton hfirst, List.flatMap_append, ih rest.length hlen rest rfl,
          visible_append, visible_cons_of_blank (isBlank_of_isBreak hc)]
        simp
  rw [← hsplit, Text.fields]
  induction Text.split isBreak t with
  | nil => rfl
  | cons piece pieces ih =>
    cases piece with
    | nil => exact ih
    | cons c piece => simpa using ih

theorem visible_strip (h : ∀ c ∈ t, isControl c = true → isBlank c = true) :
    visible (Text.strip isControl t) = visible t := by
  obtain ⟨a, b, ht, ha, hb⟩ := Text.exists_strip isControl t
  have hblank : ∀ u : Text, (∀ c ∈ u, c ∈ t) → (∀ c ∈ u, isControl c = true) → visible u = [] := by
    intro u hsub hu
    apply visible_of_blank
    exact List.all_eq_true.mpr fun c hc => h c (hsub c hc) (hu c hc)
  have ha' := hblank a (fun c hc => by rw [ht]; exact List.mem_append_left _ hc) ha
  have hb' := hblank b (fun c hc => by rw [ht]; exact List.mem_append_right _ (List.mem_append_right _ hc)) hb
  conv => rhs; rw [ht]
  rw [visible_append, visible_append, ha', hb', List.nil_append, List.append_nil]

/-! ## What the patterns find -/

namespace Pattern

variable {before after : Option Char} {m rest : Text}

theorem fits_proseLeaders_iff : Fits proseLeaders before m after ↔ m = ['/', '/'] ∨ m = [] := by
  rw [proseLeaders, fits_optional_iff, fits_literal_pair_iff]

theorem isLeader_proseLeaders : IsLeader proseLeaders where
  longest := (longest_literal_pair '/' '/').optional
  nil _ _ := fits_proseLeaders_iff.mpr (.inr rfl)
  isLeaderChar h c hc := by
    rcases fits_proseLeaders_iff.mp h with rfl | rfl
    · rcases List.mem_pair.mp hc with rfl | rfl <;> rfl
    · exact absurd hc List.not_mem_nil

theorem leads_proseLeaders : Leads proseLeaders (fun l => l = ['/', '/']) where
  toIsLeader := isLeader_proseLeaders
  fits_iff := fits_proseLeaders_iff.trans or_comm

theorem blank_of_fits_marks (hm : Unmarked m) (h : Fits (marks proseLeaders) before m after) : Blank m := by
  obtain ⟨l, b, g, rfl, hl, hb, hg⟩ := fits_marks_leader_iff.mp h
  have hl : l = [] := by
    rcases fits_proseLeaders_iff.mp hl with rfl | hnil
    · exact absurd rfl (hm '/' List.mem_cons_self).2.2.1
    · exact hnil
  have hg : g = [] := by
    rcases hg with hg | hnil
    · obtain ⟨g', rfl⟩ := hg.exists_cons
      exact absurd rfl (hm '<' (by simp)).2.2.2.1
    · exact hnil
  rw [hl, hg, List.nil_append, List.append_nil]
  exact hb

theorem fits_marks_of_blank (h : Blank m) : Fits (marks proseLeaders) before m after :=
  fits_marks_leader_iff.mpr ⟨[], m, [], by simp, fits_proseLeaders_iff.mpr (.inr rfl), h, .inr rfl⟩

theorem blank_of_filler (hm : Unmarked m) (h : m.all isFiller = true) : Blank m := by
  apply List.all_eq_true.mpr
  intro c hc
  have hfiller := List.all_eq_true.mp h c hc
  simpa [isFiller, (hm c hc).2.1] using hfiller

end Pattern

namespace Markers

open Pattern

variable {before after : Option Char} {m a r : Text}

theorem exists_leads_of_read? {written : Text} (h : written = codeLeader ∨ written = proseLeader) :
    ∃ leader leads, read? written = some (.ofLeader leader) ∧ Leads leader leads := by
  rcases h with rfl | rfl
  · exact ⟨_, _, if_pos rfl, leads_codeLeaders⟩
  · refine ⟨_, _, ?_, leads_proseLeaders⟩
    rw [read?, if_neg (by decide), if_pos rfl]
    rfl

theorem blank_of_fits_separator (hm : Unmarked m) (h : Fits prose.separator before m after) : Blank m := by
  simp only [prose, ofLeader, row, fits_seq_iff, fits_lineBreak_iff, fits_blanks_iff] at h
  obtain ⟨x, _, rfl, hx, b, _, rfl, hb, k, y, rfl, hk, hy⟩ := h
  have hbreak : ∀ u, LineBreak u → Blank u := by
    intro u hu
    rcases hu with rfl | rfl <;> rfl
  have hk := blank_of_fits_marks (hm.mono fun c hc => by simp [hc]) hk
  simp only [blank_append]
  exact ⟨hbreak x hx, hb, hk, hbreak y hy⟩

theorem blank_of_fits_bareLine (hm : Unmarked m) (h : Fits prose.bareLine before m after) : Blank m := by
  obtain ⟨-, ⟨a, b, rfl, ha, hb⟩, -⟩ := fits_bareLine_leader_iff.mp h
  rw [blank_append]
  exact ⟨blank_of_filler (hm.mono fun c hc => List.mem_append_left _ hc) ha,
    blank_of_fits_marks (hm.mono fun c hc => List.mem_append_right _ hc) hb⟩

theorem not_blank_of_passed {line : Text} (h : Passed prose.bareLine line) : ¬Blank line := by
  intro hblank
  obtain ⟨before, after, hstart, hstop, hfits⟩ := h
  apply hfits
  exact fits_bareLine_leader_iff.mpr ⟨hstart, ⟨[], line, rfl, rfl, fits_marks_of_blank hblank⟩, hstop⟩

theorem blank_hits_bareLine (ht : Unmarked t) :
    ∀ cut ∈ (prose.bareLine.sections t).1, Blank cut.hit := by
  intro cut hmem
  have hsections := sectioned_sections isLeader_proseLeaders.longest_bareLine t
  obtain ⟨x, y, -, hfits⟩ := hsections.tracked.exists_fits [] cut hmem
  refine blank_of_fits_bareLine (ht.mono fun c hc => ?_) hfits
  rw [← uncut_sections prose.bareLine t]
  exact mem_uncut_of_mem_hit hmem hc

theorem blank_hits_separator (ht : Unmarked t) : ∀ cut ∈ (prose.separator.cuts t).1, Blank cut.hit := by
  intro cut hmem
  have htracked := tracked_cuts isLeader_proseLeaders.longest_separator t
  obtain ⟨x, y, -, hfits⟩ := htracked.exists_fits [] cut hmem
  refine blank_of_fits_separator (ht.mono fun c hc => ?_) hfits
  rw [← uncut_cuts prose.separator t]
  exact mem_uncut_of_mem_hit hmem hc

theorem splitLine_prose (ht : Unmarked (a ++ r)) (ha : Blank a) (hr : ∀ d ∈ r.head?, isBlank d = false) :
    prose.splitLine (a ++ r) =
      ⟨a.filter fun c => !isBreak c, (listSymbol? (a ++ r)).getD [], Text.strip isControl r⟩ := by
  have hlongest : LongestAt prose.indent none (a ++ r) a r := by
    refine ⟨rfl, fits_indent_leader_iff.mpr ⟨rfl, [], a, rfl, rfl, fits_marks_of_blank ha⟩, ?_⟩
    intro n rest hn hfits
    obtain ⟨-, x, y, hxy, hx, hy⟩ := fits_indent_leader_iff.mp hfits
    have hsub : ∀ c ∈ n, c ∈ a ++ r := fun c hc => by rw [hn]; exact List.mem_append_left _ hc
    have hblank : Blank n := by
      rw [hxy, blank_append]
      exact ⟨blank_of_filler (ht.mono fun c hc => hsub c (by simp [hxy, hc])) hx,
        blank_of_fits_marks (ht.mono fun c hc => hsub c (by simp [hxy, hc])) hy⟩
    by_contra hlt
    rw [Nat.not_le] at hlt
    obtain ⟨d, e, rfl, rfl⟩ := exists_cons_of_shorter hn.symm hlt
    have hd := hr d rfl
    rw [isBlank_of_mem hblank (by simp)] at hd
    cases hd
  have hfound : Found prose.indent false none (a ++ r) ⟨[], a, r⟩ :=
    ⟨rfl, by simpa using hlongest, by simp, unmatched_nil _⟩
  have hfind : prose.indent.find? false none (a ++ r) = some ⟨[], a, r⟩ :=
    hfound.find?_eq isLeader_proseLeaders.longest_indent
  rw [splitLine, hfind]

theorem exists_splitLine_prose (ht : Unmarked t) :
    ∃ a r, t = a ++ r ∧ Blank a ∧ prose.splitLine t =
      ⟨a.filter fun c => !isBreak c, (listSymbol? t).getD [], Text.strip isControl r⟩ := by
  have hsplit := List.takeWhile_append_dropWhile (p := isBlank) (l := t)
  refine ⟨t.takeWhile isBlank, t.dropWhile isBlank, hsplit.symm, List.all_takeWhile, ?_⟩
  conv => lhs; rw [← hsplit]
  rw [splitLine_prose (by rwa [hsplit]) List.all_takeWhile, hsplit]
  intro d hd
  have := List.head?_dropWhile_not isBlank t
  rw [hd] at this
  simpa using this

theorem blank_indent_prose (ht : Unmarked t) : Blank (prose.splitLine t).indent := by
  obtain ⟨a, r, -, ha, heq⟩ := exists_splitLine_prose ht
  rw [heq]
  apply List.all_eq_true.mpr
  intro c hc
  exact isBlank_of_mem ha (List.mem_of_mem_filter hc)

theorem visible_rest_prose (ht : Unmarked t) : visible (prose.splitLine t).rest = visible t := by
  obtain ⟨a, r, rfl, ha, heq⟩ := exists_splitLine_prose ht
  rw [heq, visible_append, visible_of_blank ha, List.nil_append]
  exact visible_strip fun c hc => (ht c (List.mem_append_right _ hc)).2.2.2.2

end Markers

end Reflow
