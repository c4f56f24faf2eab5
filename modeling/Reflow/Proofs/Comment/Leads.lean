import Reflow.Comment.Indent
import Reflow.Proofs.Comment.Longest
import Reflow.Proofs.Pattern.Search
import Reflow.Proofs.Text.Strip

/-!
# What the patterns made of a leader describe

If a leader fits what is of some kind, wherever it stands (`Leads`), then the indents of lines are those of that kind
(`Leads.fits_indent_iff`).  The indent of a line is the longest one at its start (`Leads.splitLine_eq`), and an indent
that is cut at line breaks falls into indents (`IndentOf.of_mem_split`).
-/

namespace Reflow

open Pattern

/-! ## Indents cut at white space -/

theorem isBlank_of_isBreak_ne {c : Char} (h : isBreak c = true) : isBlank c = true ∧ c ≠ ' ' := by
  refine ⟨isBlank_of_isBreak h, ?_⟩
  rintro rfl
  exact absurd h (by decide)

namespace IndentOf

variable {leads : Text → Prop}

theorem nil : IndentOf leads [] :=
  ⟨[], [], rfl, rfl, [], [], [], rfl, .inl rfl, rfl, .inl rfl⟩

theorem of_blank {t : Text} (h : Blank t) : IndentOf leads t := by
  simpa using IndentOf.nil.append (all_isFiller_of_blank h)

variable (hleads : ∀ {l : Text}, leads l → ∀ c ∈ l, isLeaderChar c = true)
include hleads

theorem of_mem_split {sep : Char → Bool} (hsep : ∀ c, sep c = true → isBlank c = true ∧ c ≠ ' ') {t piece : Text}
    (h : IndentOf leads t) (hpiece : piece ∈ Text.split sep t) : IndentOf leads piece := by
  generalize hn : t.length = n
  induction n using Nat.strong_induction_on generalizing t with
  | _ n ih =>
    rcases Text.split_cases sep t with ht | ⟨first, c, rest, rfl, hc, hfirst⟩
    · rw [Text.split_eq_singleton ht, List.mem_singleton] at hpiece
      rw [hpiece]
      exact h
    · rw [Text.split_append hc, Text.split_eq_singleton hfirst, List.singleton_append,
        List.mem_cons] at hpiece
      obtain ⟨h₁, h₂⟩ := h.split hleads (hsep c hc).1 (hsep c hc).2
      rcases hpiece with rfl | hpiece
      · exact h₁
      · refine ih rest.length ?_ h₂ hpiece rfl
        rw [← hn, List.length_append, List.length_cons]
        omega

theorem of_append_breaks {b t : Text} (hb : ∀ c ∈ b, isBreak c = true) (h : IndentOf leads (b ++ t)) :
    IndentOf leads t := by
  induction b with
  | nil => exact h
  | cons c b ih =>
    rw [List.forall_mem_cons] at hb
    obtain ⟨hblank, hspace⟩ := isBlank_of_isBreak_ne hb.1
    exact ih hb.2 (IndentOf.split hleads (x := []) hblank hspace h).2

/-- An indent ends in a tag, or it goes on with any white space. -/
theorem exists_tag {m : Text} (h : IndentOf leads m) : ∃ u g, m = u ++ g ∧ '<' ∉ u ∧
    (BreakTag g ∨ g = [] ∧ ∀ c, isBlank c = true → IndentOf leads (u ++ [c])) := by
  obtain ⟨a, _, rfl, ha, l, b, g, rfl, hl, hb, hg⟩ := h
  have hopen : '<' ∉ a ++ (l ++ b) := by
    rw [List.mem_append, List.mem_append, not_or, not_or]
    refine ⟨fun hmem => ?_, fun hmem => ?_, fun hmem => ?_⟩
    · cases List.all_eq_true.mp ha _ hmem
    · rcases hl with rfl | hl
      · exact List.not_mem_nil hmem
      · cases hleads hl _ hmem
    · cases isBlank_of_mem hb hmem
  refine ⟨a ++ (l ++ b), g, by simp, hopen, ?_⟩
  rcases hg with rfl | hg
  · refine .inr ⟨rfl, fun c hc => ?_⟩
    have hblank : Blank (b ++ [c]) := blank_append.mpr ⟨hb, blank_cons.mpr ⟨hc, rfl⟩⟩
    exact ⟨a, l ++ (b ++ [c] ++ []), by simp, ha, l, b ++ [c], [], rfl, hl, hblank, .inl rfl⟩
  · exact .inl hg

end IndentOf

/-! ## What the patterns describe -/

section

variable {leader : Pattern} {before after : Option Char} {m : Text}

/-- An indent is filler, a leader and a tag at the start of a text. -/
theorem Markers.fits_indent_leader_iff :
    Fits (ofLeader leader).indent before m after ↔ before = none ∧
      ∃ a b, m = a ++ b ∧ a.all isFiller = true ∧ Fits (marks leader) (a.getLast?.or before) b after := by
  simp only [ofLeader, row, fits_seq_iff, fits_look_iff, fits_filler_iff, isEdge, Option.isNone_iff_eq_none]
  constructor
  · rintro ⟨_, _, rfl, ⟨rfl, h⟩, a, m, rfl, ha, hm⟩
    exact ⟨h, a, m, rfl, ha, hm⟩
  · rintro ⟨h, a, m, rfl, ha, hm⟩
    exact ⟨[], _, rfl, ⟨rfl, h⟩, a, m, rfl, ha, hm⟩

theorem Pattern.fits_bareLine_leader_iff :
    Fits (Markers.ofLeader leader).bareLine before m after ↔
      isLineStart true before (m.head?.or after) = true ∧
      (∃ a b, m = a ++ b ∧ a.all isFiller = true ∧ Fits (marks leader) (a.getLast?.or before) b after) ∧
      isLineEnd true (m.getLast?.or before) after = true := by
  simp only [Markers.ofLeader, row, fits_seq_iff, fits_look_iff, fits_filler_iff]
  constructor
  · rintro ⟨_, _, rfl, ⟨rfl, hstart⟩, a, _, rfl, ha, m, _, rfl, hm, rfl, hend⟩
    refine ⟨by simpa using hstart, ⟨a, m, by simp, ha, by simpa using hm⟩, ?_⟩
    simpa [List.getLast?_append, Option.or_assoc] using hend
  · rintro ⟨hstart, ⟨a, m, rfl, ha, hm⟩, hend⟩
    refine ⟨[], _, rfl, ⟨rfl, by simpa using hstart⟩, a, _, rfl, ha, m, [], by simp, by simpa using hm, rfl, ?_⟩
    simpa [List.getLast?_append, Option.or_assoc] using hend

end

/-- A pattern of leaders that fits nothing and the leaders of some kind, wherever they stand. -/
structure Leads (leader : Pattern) (leads : Text → Prop) : Prop extends IsLeader leader where
  /-- What fits is nothing or of that kind. -/
  fits_iff : ∀ {before l after}, Fits leader before l after ↔ l = [] ∨ leads l

theorem leads_codeLeaders : Leads codeLeaders Leader where
  toIsLeader := isLeader_codeLeaders
  fits_iff := fits_codeLeaders_iff

namespace Leads

variable {leader : Pattern} {leads : Text → Prop} (h : Leads leader leads) {before after : Option Char}
  {t m rest : Text}
include h

theorem isLeaderChar_of_mem {l : Text} (hl : leads l) : ∀ c ∈ l, Reflow.isLeaderChar c = true :=
  h.isLeaderChar (h.fits_iff.mpr (.inr hl) : Fits leader none l none)

theorem fits_marks_iff : Fits (marks leader) before m after ↔ MarksOf leads m := by
  rw [fits_marks_leader_iff, MarksOf]
  constructor
  · rintro ⟨l, b, g, rfl, hl, hb, hg⟩
    exact ⟨l, b, g, rfl, h.fits_iff.mp hl, hb, hg.symm⟩
  · rintro ⟨l, b, g, rfl, hl, hb, hg⟩
    exact ⟨l, b, g, rfl, h.fits_iff.mpr hl, hb, hg.symm⟩

theorem fits_indent_iff : Fits (Markers.ofLeader leader).indent before m after ↔ before = none ∧ IndentOf leads m := by
  simp only [Markers.fits_indent_leader_iff, h.fits_marks_iff, IndentOf]

theorem fits_bareLine_iff :
    Fits (Markers.ofLeader leader).bareLine before m after ↔
      isLineStart true before (m.head?.or after) = true ∧ IndentOf leads m ∧
        isLineEnd true (m.getLast?.or before) after = true := by
  simp only [fits_bareLine_leader_iff, h.fits_marks_iff, IndentOf]

theorem fits_separator_iff :
    Fits (Markers.ofLeader leader).separator before m after ↔
      ∃ x a k y, m = x ++ (a ++ k ++ y) ∧ LineBreak x ∧ Blank a ∧ MarksOf leads k ∧ LineBreak y := by
  simp only [Markers.ofLeader, row, fits_seq_iff, fits_lineBreak_iff, fits_blanks_iff, h.fits_marks_iff]
  constructor
  · rintro ⟨x, _, rfl, hx, a, _, rfl, ha, k, y, rfl, hk, hy⟩
    exact ⟨x, a, k, y, by simp, hx, ha, hk, hy⟩
  · rintro ⟨x, a, k, y, rfl, hx, ha, hk, hy⟩
    exact ⟨x, _, rfl, hx, a, k ++ y, by simp, ha, k, y, rfl, hk, hy⟩

/-! ## Lines in their parts -/

theorem exists_longest_indent (t : Text) : ∃ m rest, LongestAt (Markers.ofLeader leader).indent none t m rest := by
  cases hlength : (Markers.ofLeader leader).indent.length? none t with
  | none =>
    have := length?_eq_none_iff.mp hlength [] t rfl
    rw [h.fits_indent_iff] at this
    exact absurd ⟨rfl, IndentOf.nil⟩ this
  | some n =>
    obtain ⟨m, rest, hm, -⟩ := (length?_eq_some_iff h.longest_indent).mp hlength
    exact ⟨m, rest, hm⟩

theorem longest_indent_iff :
    LongestAt (Markers.ofLeader leader).indent none t m rest ↔
      t = m ++ rest ∧ IndentOf leads m ∧ ∀ n rest', t = n ++ rest' → IndentOf leads n → n.length ≤ m.length := by
  constructor
  · rintro ⟨hsplit, hfits, hle⟩
    refine ⟨hsplit, (h.fits_indent_iff.mp hfits).2, fun n rest' hn hindent => ?_⟩
    exact hle n rest' hn (h.fits_indent_iff.mpr ⟨rfl, hindent⟩)
  · rintro ⟨hsplit, hindent, hle⟩
    refine ⟨hsplit, h.fits_indent_iff.mpr ⟨rfl, hindent⟩, fun n rest' hn hfits => ?_⟩
    exact hle n rest' hn (h.fits_indent_iff.mp hfits).2

/-- A line is its longest indent and what is left, both tidied up. -/
theorem splitLine_eq (hlongest : LongestAt (Markers.ofLeader leader).indent none t m rest) :
    (Markers.ofLeader leader).splitLine t =
      ⟨m.filter fun c => !isBreak c, (listSymbol? t).getD [], Text.strip isControl rest⟩ := by
  have hfound : Found (Markers.ofLeader leader).indent false none t ⟨[], m, rest⟩ :=
    ⟨hlongest.split, by simpa [← hlongest.split] using hlongest, by simp, unmatched_nil _⟩
  rw [Markers.splitLine, hfound.find?_eq h.longest_indent]

theorem splitLine_of_longest (hlongest : LongestAt (Markers.ofLeader leader).indent none t m rest)
    (hbreak : ∀ c ∈ t, isBreak c = false) :
    (Markers.ofLeader leader).splitLine t = ⟨m, (listSymbol? t).getD [], Text.strip isControl rest⟩ := by
  have hm : m.filter (fun c => !isBreak c) = m := by
    refine List.filter_eq_self.mpr fun c hc => ?_
    rw [hbreak c (by rw [hlongest.split]; exact List.mem_append_left _ hc)]
    rfl
  rw [h.splitLine_eq hlongest, hm]

theorem rest_of_indent (ht : IndentOf leads t) : ((Markers.ofLeader leader).splitLine t).rest = [] := by
  rw [h.splitLine_eq (longestAt_whole (h.fits_indent_iff.mpr ⟨rfl, ht⟩))]
  rfl

theorem isBare_of_indent (ht : IndentOf leads t) : (Markers.ofLeader leader).isBare t = true := by
  rw [Markers.isBare, h.rest_of_indent ht]
  rfl

theorem exists_rest_eq (t : Text) :
    ∃ m r, t = m ++ r ∧ ((Markers.ofLeader leader).splitLine t).rest = Text.strip isControl r := by
  obtain ⟨m, r, hlongest⟩ := h.exists_longest_indent t
  exact ⟨m, r, hlongest.split, by rw [h.splitLine_eq hlongest]⟩

theorem mem_indent_cases {c : Char} (hc : c ∈ ((Markers.ofLeader leader).splitLine t).indent) :
    isFiller c = true ∨ (∃ l, leads l ∧ c ∈ l) ∨ isTagChar c = true := by
  obtain ⟨m, r, hlongest⟩ := h.exists_longest_indent t
  rw [h.splitLine_eq hlongest] at hc
  exact (h.longest_indent_iff.mp hlongest).2.1.mem_cases (List.mem_of_mem_filter hc)

end Leads

/-! ## The patterns of source code -/

namespace Markers

variable {before after : Option Char} {m : Text}

theorem fits_bareLine_iff :
    Fits code.bareLine before m after ↔
      isLineStart true before (m.head?.or after) = true ∧ Indent m ∧
        isLineEnd true (m.getLast?.or before) after = true :=
  leads_codeLeaders.fits_bareLine_iff

theorem fits_separator_iff :
    Fits code.separator before m after ↔
      ∃ x t y, m = x ++ (t ++ y) ∧ LineBreak x ∧ Wordless t ∧ LineBreak y := by
  refine leads_codeLeaders.fits_separator_iff.trans ⟨?_, ?_⟩
  · rintro ⟨x, a, k, y, rfl, hx, ha, hk, hy⟩
    exact ⟨x, a ++ k, y, rfl, hx, ⟨a, k, rfl, ha, hk⟩, hy⟩
  · rintro ⟨x, _, y, rfl, hx, ⟨a, k, rfl, ha, hk⟩, hy⟩
    exact ⟨x, a, k, y, rfl, hx, ha, hk, hy⟩

end Markers

end Reflow
