import Reflow.Proofs.Comment.LinePrefix
import Reflow.Proofs.Comment.Prose

/-!
# The parts of a line

What splitting a line at its indent gives, said without splitting it: the longest indent and the words, without the
white space around them (`Markers.Parts`).  A tag ends an indent, and an indent without one takes up all the white space
after it, so the words do not lengthen the indent when they are put right behind it (`Leads.parts_rejoined`), and the
line that is put together so falls into the same parts again (`Markers.splitLine_rejoined`).
-/

namespace Reflow

open Pattern

/-! ## Where an indent ends -/

namespace IndentOf

variable {leads : Text → Prop} (hleads : ∀ {l : Text}, leads l → ∀ c ∈ l, isLeaderChar c = true)
include hleads

theorem eq_nil_of_tag {u g v : Text} (hu : '<' ∉ u) (hg : BreakTag g) (h : IndentOf leads (u ++ (g ++ v))) :
    v = [] := by
  obtain ⟨u', g', heq, hu', hg'⟩ := h.exists_tag hleads
  have hclosed {x : Text} (hx : '<' ∉ x) : ∀ c ∈ x, decide (c ≠ '<') = true :=
    fun c hc => decide_eq_true (ne_of_mem_of_not_mem hc hx)
  have hopens {x y : Text} (hx : BreakTag x) : ∀ c ∈ (x ++ y).head?, decide (c ≠ '<') = false := by
    obtain ⟨x', rfl⟩ := hx.exists_cons
    rintro c ⟨⟩
    rfl
  rcases hg' with hg' | ⟨rfl, -⟩
  · -- both tags begin at the first bracket
    have heq' : u ++ (g ++ v) = u' ++ (g' ++ []) := by rw [heq, List.append_nil]
    obtain ⟨-, hrest⟩ := append_inj_of_accepted heq' (hclosed hu) (hclosed hu') (hopens hg) (hopens hg')
    exact (List.append_inj hrest (hg.length_eq hg' hrest)).2
  · obtain ⟨g, rfl⟩ := hg.exists_cons
    refine absurd ?_ hu'
    rw [List.append_nil] at heq
    simp [← heq]

end IndentOf

/-! ## Lines in their parts -/

/-- A line is its longest indent and its words, with blanks and control white space around the words, which neither
begin nor end with such characters. -/
structure Markers.Parts (markers : Markers) (line indent words : Text) : Prop where
  /-- What comes after the indent. -/
  spaced : ∃ a b, line = indent ++ (a ++ (words ++ b)) ∧ ∀ c ∈ a ++ b, isControl c = true ∧ isBlank c = true
  longest : LongestAt markers.indent none line indent (line.drop indent.length)
  head : ∀ c ∈ words.head?, isControl c = false
  last : ∀ c ∈ words.getLast?, isControl c = false

namespace Leads

variable {leader : Pattern} {leads : Text → Prop} (h : Leads leader leads) {line indent words m r : Text}
include h

theorem parts_splitLine (hbreak : ∀ c ∈ line, isBreak c = false)
    (hcontrol : ∀ c ∈ line, isControl c = true → isBlank c = true) :
    (Markers.ofLeader leader).Parts line ((Markers.ofLeader leader).splitLine line).indent
      ((Markers.ofLeader leader).splitLine line).rest := by
  obtain ⟨m, r, hlongest⟩ := h.exists_longest_indent line
  rw [h.splitLine_of_longest hlongest hbreak]
  obtain ⟨a, b, hr, ha, hb⟩ := Text.exists_strip isControl r
  have hline : line = m ++ (a ++ (Text.strip isControl r ++ b)) := hlongest.split.trans (congrArg (m ++ ·) hr)
  refine ⟨⟨a, b, hline, fun c hc => ?_⟩, ?_, Text.head?_strip, Text.getLast?_strip⟩
  · have hc' : isControl c = true := (List.mem_append.mp hc).elim (ha c) (hb c)
    refine ⟨hc', hcontrol c ?_ hc'⟩
    rw [hline]
    simp only [List.mem_append] at hc ⊢
    tauto
  · rwa [hlongest.split, List.drop_left, ← hlongest.split]

theorem splitLine_of_parts (hparts : (Markers.ofLeader leader).Parts line indent words)
    (hbreak : ∀ c ∈ line, isBreak c = false) :
    (Markers.ofLeader leader).splitLine line = ⟨indent, (listSymbol? line).getD [], words⟩ := by
  obtain ⟨a, b, hline, hspace⟩ := hparts.spaced
  have hdrop : line.drop indent.length = a ++ (words ++ b) := by rw [hline, List.drop_left]
  have hstrip : Text.strip isControl (a ++ (words ++ b)) = words :=
    Text.strip_append (fun c hc => (hspace c (List.mem_append_left _ hc)).1)
      (fun c hc => (hspace c (List.mem_append_right _ hc)).1) hparts.head hparts.last
  rw [h.splitLine_of_longest hparts.longest hbreak, hdrop, hstrip]

/-- The longest indent stays so without the white space after it, and without what ends the line. -/
theorem longest_indent_of_trimmed {a b : Text} (ha : Blank a)
    (hlongest : LongestAt (Markers.ofLeader leader).indent none line indent (a ++ (words ++ b))) :
    LongestAt (Markers.ofLeader leader).indent none (indent ++ words) indent words := by
  obtain ⟨hline, hindent, hle⟩ := h.longest_indent_iff.mp hlongest
  refine h.longest_indent_iff.mpr ⟨rfl, hindent, fun n rest hn hn' => ?_⟩
  cases a with
  | nil =>
    refine hle n (rest ++ b) ?_ hn'
    rw [hline, List.nil_append, ← List.append_assoc, hn, List.append_assoc]
  | cons c a =>
    by_contra hlt
    obtain ⟨d, e, rfl, -⟩ := exists_cons_of_shorter hn.symm (Nat.not_le.mp hlt)
    obtain ⟨u, g, rfl, hu, hg⟩ := hindent.exists_tag h.isLeaderChar_of_mem
    rcases hg with hg | ⟨rfl, hgrow⟩
    · rw [List.append_assoc] at hn'
      exact absurd (hn'.eq_nil_of_tag h.isLeaderChar_of_mem hu hg) (List.cons_ne_nil _ _)
    · -- the white space would belong to the indent
      have hlonger := hle (u ++ [c]) (a ++ (words ++ b)) (by simp [hline]) (hgrow c (blank_cons.mp ha).1)
      rw [List.append_nil, List.length_append, List.length_singleton] at hlonger
      omega

theorem parts_rejoined (hparts : (Markers.ofLeader leader).Parts line indent words) :
    (Markers.ofLeader leader).Parts (indent ++ words) indent words := by
  obtain ⟨a, b, hline, hspace⟩ := hparts.spaced
  have ha : Blank a := List.all_eq_true.mpr fun c hc => (hspace c (List.mem_append_left _ hc)).2
  have hlongest := hparts.longest
  rw [hline, List.drop_left] at hlongest
  refine ⟨⟨[], [], by simp, by simp⟩, ?_, hparts.head, hparts.last⟩
  rw [List.drop_left]
  exact h.longest_indent_of_trimmed ha hlongest

end Leads

namespace Markers

/-- Splitting a line without line breaks whose controls are white space gives its parts, and splitting these put
together gives them again. -/
theorem splitLine_rejoined {written : Text} (h : written = codeLeader ∨ written = proseLeader) :
    ∃ markers, read? written = some markers ∧ ∀ line : Text, (∀ c ∈ line, isBreak c = false) →
      (∀ c ∈ line, isControl c = true → isBlank c = true) →
      let parts := markers.splitLine line
      let again := markers.splitLine (parts.indent ++ parts.rest)
      markers.Parts line parts.indent parts.rest ∧ again.indent = parts.indent ∧ again.rest = parts.rest := by
  obtain ⟨leader, leads, hread, hleads⟩ := exists_leads_of_read? h
  refine ⟨_, hread, fun line hbreak hcontrol => ?_⟩
  intro parts again
  have hparts : (ofLeader leader).Parts line parts.indent parts.rest := hleads.parts_splitLine hbreak hcontrol
  obtain ⟨a, b, hline, -⟩ := hparts.spaced
  have hbreak' : ∀ c ∈ parts.indent ++ parts.rest, isBreak c = false := by
    intro c hc
    refine hbreak c ?_
    rw [hline]
    simp only [List.mem_append] at hc ⊢
    tauto
  have hagain : again = ⟨parts.indent, _, parts.rest⟩ :=
    hleads.splitLine_of_parts (hleads.parts_rejoined hparts) hbreak'
  exact ⟨hparts, by rw [hagain], by rw [hagain]⟩

/-- White space after a tag is no part of the words, and the next line takes it for the same indent. -/
theorem splitLine_rejoined_tag :
    let line := "\t// <br/> \t aa // \t".toList
    (∀ c ∈ line, isBreak c = false) ∧ (∀ c ∈ line, isControl c = true → isBlank c = true) ∧
    ∃ markers, read? codeLeader = some markers ∧
      markers.splitLine line = ⟨"\t// <br/>".toList, [], "aa //".toList⟩ ∧
      (markers.splitLine "\t// <br/>aa //".toList).indent = "\t// <br/>".toList ∧
      (markers.splitLine "\t// <br/>aa //".toList).rest = "aa //".toList := by
  intro line
  have hbreak : ∀ c ∈ line, isBreak c = false := by
    have hall : (line.all fun c => !isBreak c) = true := by decide
    simpa using hall
  have hcontrol : ∀ c ∈ line, isControl c = true → isBlank c = true := by
    have hall : (line.all fun c => !isControl c || isBlank c) = true := by decide
    simpa [or_iff_not_imp_left] using hall
  obtain ⟨markers, hread, hsplit⟩ := splitLine_rejoined (.inl rfl : codeLeader = codeLeader ∨ codeLeader = proseLeader)
  have hmarkers : markers = code := Option.some.inj (hread.symm.trans rfl)
  subst hmarkers
  have hline : code.splitLine line = ⟨"\t// <br/>".toList, [], "aa //".toList⟩ := by decide
  obtain ⟨-, hindent, hrest⟩ := hsplit line hbreak hcontrol
  rw [hline] at hindent hrest
  exact ⟨hbreak, hcontrol, code, hread, hline, hindent, hrest⟩

end Markers

end Reflow
