import Reflow.Proofs.Comment.Bare
import Reflow.Proofs.Pattern.Sections

/-!
# What is wrapped on its own

A text falls into paragraphs at its separators, and a paragraph into stretches at the bare lines that are
found in it (`Markers.stretches`).  The bare lines that are not found are empty: a line that holds
something and is no line of the text around it is none of those that the pattern describes
(`Pattern.passed_of_mem_gaps_sections`).
-/

namespace Reflow

namespace Pattern

variable {p : Pattern} {before : Option Char} {cuts : List Cut} {t last line : Text}

def gaps (cuts : List Cut × Text) : List Text :=
  cuts.1.map Cut.gap ++ [cuts.2]

theorem mem_uncut_of_mem_gaps {cuts : List Cut × Text} {s : Text} {c : Char} (hs : s ∈ gaps cuts)
    (hc : c ∈ s) : c ∈ uncut cuts.1 cuts.2 := by
  obtain ⟨cuts, last⟩ := cuts
  induction cuts with
  | nil => rwa [show s = last from List.mem_singleton.mp hs] at hc
  | cons cut cuts ih =>
    rw [uncut, List.mem_append, List.mem_append]
    rcases List.mem_cons.mp hs with rfl | hs
    · exact .inl hc
    · exact .inr (.inr (ih hs))

theorem mem_uncut_of_mem_hit {cuts : List Cut × Text} {cut : Cut} {c : Char}
    (hcut : cut ∈ cuts.1) (hc : c ∈ cut.hit) : c ∈ uncut cuts.1 cuts.2 := by
  obtain ⟨cuts, last⟩ := cuts
  induction cuts with
  | nil => exact absurd hcut List.not_mem_nil
  | cons cut' cuts ih =>
    rw [uncut, List.mem_append, List.mem_append]
    rcases List.mem_cons.mp hcut with rfl | hcut
    · exact .inr (.inl hc)
    · exact .inr (.inr (ih hcut))

/-- A pattern whose matches start where a line starts and end where a line ends. -/
structure OfLines (p : Pattern) : Prop where
  start : ∀ {before m after}, Fits p before m after → isLineStart true before (m.head?.or after) = true
  stop : ∀ {before m after}, Fits p before m after → isLineEnd true (m.getLast?.or before) after = true

/-- A line in the text between matches, where the pattern does not fit although a line starts and ends. -/
def Passed (p : Pattern) (line : Text) : Prop :=
  ∃ before after, isLineStart true before (line.head?.or after) = true ∧
    isLineEnd true (line.getLast?.or before) after = true ∧ ¬Fits p before line after

theorem isLineStart_of_isBreak {c d : Char} (hc : isBreak c = true) (hd : isBreak d = false) :
    isLineStart true (some c) (some d) = true := by
  have hne : d ≠ '\n' := by
    rintro rfl
    cases hd
  simp only [isBreak, Bool.or_eq_true, decide_eq_true_eq] at hc
  rcases hc with rfl | rfl
  · rfl
  · simpa [isLineStart] using hne

theorem isLineEnd_of_isBreak {c d : Char} (hc : isBreak c = false) (hd : isBreak d = true) :
    isLineEnd true (some c) (some d) = true := by
  have hne : c ≠ '\r' := by
    rintro rfl
    cases hc
  simp only [isBreak, Bool.or_eq_true, decide_eq_true_eq] at hd
  rcases hd with rfl | rfl
  · simpa [isLineEnd] using hne
  · rfl

/-- A line of a text without matches is passed over, if lines start and end at the ends of that text. -/
theorem passed_of_barren {later : Text} (h : Barren p before t later)
    (hstart : before = none ∨ ∀ c ∈ (t ++ later).head?, isBreak c = true)
    (hstop : later = [] ∨ ∀ c ∈ t.getLast?, isBreak c = true) (hline : line ∈ Text.fields isBreak t) :
    Passed p line := by
  obtain ⟨hsplit, hne⟩ := List.mem_filter.mp hline
  have hbreak := Text.not_sep_of_mem_split hsplit
  obtain ⟨x, y, rfl, hx, hy⟩ := Text.exists_around_of_mem_split hsplit
  have hne' : line ≠ [] := by simpa using hne
  obtain ⟨c, d, rfl⟩ := List.exists_cons_of_ne_nil hne'
  obtain ⟨e, hlast⟩ : ∃ e, (c :: d).getLast? = some e := ⟨_, List.getLast?_eq_some_getLast hne'⟩
  have hc : isBreak c = false := hbreak c List.mem_cons_self
  have he : isBreak e = false := hbreak e (List.mem_of_getLast? hlast)
  refine ⟨x.getLast?.or before, (y ++ later).head?, ?_, ?_, ?_⟩
  · cases hx' : x.getLast? with
    | none =>
      rw [List.getLast?_eq_none_iff.mp hx'] at hstart
      rcases hstart with rfl | hstart
      · rfl
      · rw [hstart c rfl] at hc
        cases hc
    | some f => exact isLineStart_of_isBreak (hx f hx') hc
  · rw [hlast]
    cases y with
    | nil =>
      rcases hstop with rfl | hstop
      · rfl
      · have hlast' : (x ++ (c :: d ++ [])).getLast? = some e := by
          rw [List.append_nil, List.getLast?_append_of_ne_nil _ hne', hlast]
        rw [hstop e hlast'] at he
        cases he
    | cons f y => exact isLineEnd_of_isBreak he (hy f rfl)
  · intro hfits
    have hnil := h x c (d ++ y) (c :: d) (y ++ later) (by simp) (by simp) hfits
    exact hne' hnil

theorem passed_of_sectioned (hp : p.OfLines) (h : Sectioned p before cuts last)
    (hstart : before = none ∨ ∀ c ∈ (uncut cuts last).head?, isBreak c = true) :
    ∀ s ∈ gaps (cuts, last), ∀ line ∈ Text.fields isBreak s, Passed p line := by
  induction cuts generalizing before with
  | nil =>
    intro s hs line hline
    rw [show s = last from List.mem_singleton.mp hs] at hline
    refine passed_of_barren h.tracked ?_ (.inl rfl) hline
    rwa [List.append_nil]
  | cons cut cuts ih =>
    obtain ⟨⟨hgap, hlongest, hlater⟩, hne⟩ := h
    rw [List.forall_mem_cons] at hne
    have hhit : ((cut.gap ++ cut.hit).getLast?.or before) = cut.hit.getLast? := by
      obtain ⟨e, he⟩ : ∃ e, cut.hit.getLast? = some e := ⟨_, List.getLast?_eq_some_getLast hne.1⟩
      rw [List.getLast?_append_of_ne_nil _ hne.1, he]
      rfl
    refine List.forall_mem_cons.mpr ⟨?_, ih ⟨hlater, hne.2⟩ (.inr ?_)⟩
    · intro line hline
      refine passed_of_barren hgap hstart (.inr ?_) hline
      intro c hc
      apply isBreak_of_isLineStart (hp.start hlongest.fits)
      rw [show cut.gap.getLast? = some c from hc]
      rfl
    · intro c hc
      exact isBreak_of_isLineEnd (hp.stop hlongest.fits) hc

theorem passed_of_mem_gaps_sections (hp : p.OfLines) (hlongest : p.Longest) {s : Text}
    (hs : s ∈ gaps (p.sections t)) (hline : line ∈ Text.fields isBreak s) : Passed p line :=
  passed_of_sectioned hp (sectioned_sections hlongest t) (.inl rfl) s hs line hline

theorem mem_fields_of_mem_gaps {q : Pattern} {before : Option Char} {cuts : List Cut} {last line : Text} (hq : q.OfLines)
    (h : Sectioned q before cuts last) :
    ∀ s ∈ gaps (cuts, last), line ∈ Text.fields isBreak s → line ∈ Text.fields isBreak (uncut cuts last) := by
  induction cuts generalizing before with
  | nil =>
    intro s hs hline
    rwa [show s = last from List.mem_singleton.mp hs] at hline
  | cons cut cuts ih =>
    intro s hs hline
    obtain ⟨⟨-, hlongest, hlater⟩, hne⟩ := h
    have hstart : ∀ c ∈ cut.gap.getLast?, isBreak c = true := by
      intro c hc
      apply isBreak_of_isLineStart (hq.start hlongest.fits)
      rw [show cut.gap.getLast? = some c from hc]
      rfl
    have hstop : ∀ c ∈ (uncut cuts last).head?, isBreak c = true := by
      intro c hc
      exact isBreak_of_isLineEnd (hq.stop hlongest.fits) hc
    rw [uncut, Text.fields_append hstart, Text.fields_append' hstop, List.mem_append, List.mem_append]
    rcases List.mem_cons.mp hs with rfl | hs
    · exact .inl hline
    · exact .inr (.inr (ih ⟨hlater, (List.forall_mem_cons.mp hne).2⟩ s hs hline))

theorem ofLines_bareLine (leader : Pattern) : (Markers.ofLeader leader).bareLine.OfLines where
  start h := (fits_bareLine_leader_iff.mp h).1
  stop h := (fits_bareLine_leader_iff.mp h).2.2

end Pattern

/-! ## Texts of which no line is an indent -/

namespace Leads

open Pattern

variable {leader : Pattern} {leads : Text → Prop} (h : Leads leader leads) {t : Text}
include h

theorem barren_bareLine (ht : ∀ line ∈ Text.closedLines t, ¬IndentOf leads line) (before : Option Char) :
    Barren (Markers.ofLeader leader).bareLine before t [] := by
  intro a c b m rest ht' hsplit hfits
  rw [List.append_nil] at hsplit
  exact h.eq_nil_of_fits_bareLine (x := a) (by rwa [← hsplit, ← ht']) hfits

theorem barren_separator
    (ht : ∀ pre line post, Text.split isBreak t = pre ++ line :: post → pre ≠ [] → post ≠ [] → ¬IndentOf leads line)
    (before : Option Char) : Barren (Markers.ofLeader leader).separator before t [] := by
  intro a c b m rest ht' hsplit hfits
  rw [List.append_nil] at hsplit
  exact (h.not_fits_separator ht (by rw [ht', hsplit]) hfits).elim

theorem not_fits_separator_nil {before after : Option Char} :
    ¬Fits (Markers.ofLeader leader).separator before [] after := by
  intro hfits
  obtain ⟨c, u, d, hnil, -⟩ := h.exists_of_fits_separator hfits
  cases hnil

theorem cuts_separator
    (ht : ∀ pre line post, Text.split isBreak t = pre ++ line :: post → pre ≠ [] → post ≠ [] → ¬IndentOf leads line) :
    (Markers.ofLeader leader).separator.cuts t = ([], t) := by
  rw [← sections_eq_cuts h.longest_separator fun _ _ => h.not_fits_separator_nil,
    sections_of_barren h.longest_separator (h.barren_separator ht none)]

end Leads

theorem Markers.cuts_separator_of_worded {t : Text} (ht : Worded t) : code.separator.cuts t = ([], t) := by
  refine leads_codeLeaders.cuts_separator fun pre line post hlines _ hpost => ?_
  exact ht line (Text.mem_closedLines_of_next hlines hpost)

open Pattern (gaps)

namespace Markers

def stretches (markers : Markers) (t : Text) : List Text :=
  (gaps (markers.separator.cuts t)).flatMap fun paragraph => gaps (markers.bareLine.sections paragraph)

end Markers

end Reflow
