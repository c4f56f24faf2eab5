import Reflow.Proofs.Comment.Line

/-!
# Bare lines

A match of the pattern for bare lines takes up whole lines, each of them an indent, unless it is
empty (`Markers.exists_split_of_fits_bareLine`).  So there is no such match where no line is an indent
(`Leads.eq_nil_of_fits_bareLine`), and no separator either (`Leads.not_fits_separator`).
-/

namespace Reflow

namespace Text

variable {sep : Char → Bool} {t u : Text} {c : Char}

theorem head?_split_append (hc : sep c = true) :
    (split sep (t ++ c :: u)).head? = (split sep t).head? := by
  rw [split_append hc, List.head?_append_of_ne_nil _ (split_ne_nil sep t)]

/-- The lines of a text, cut at its line breaks; a line break at the end starts no line. -/
def closedLines (t : Text) : List Text :=
  if (split isBreak t).getLast? = some [] then (split isBreak t).dropLast else split isBreak t

theorem mem_closedLines_of_split {pre ls post : List Text} {line : Text}
    (h : split isBreak t = pre ++ (ls ++ post)) (hline : line ∈ ls) (hpost : post ≠ [] ∨ line ≠ []) :
    line ∈ closedLines t := by
  have hmem : line ∈ split isBreak t := by
    rw [h]
    exact List.mem_append_right _ (List.mem_append_left _ hline)
  unfold closedLines
  split
  · rename_i hlast
    rcases hpost with hpost | hne
    · rw [h, ← List.append_assoc, List.dropLast_append_of_ne_nil hpost]
      exact List.mem_append_left _ (List.mem_append_right _ hline)
    · rw [← List.dropLast_append_getLast? _ hlast, List.mem_append, List.mem_singleton] at hmem
      exact hmem.resolve_right hne
  · exact hmem

theorem mem_split_of_mem_closedLines {line : Text} (h : line ∈ closedLines t) : line ∈ split isBreak t := by
  unfold closedLines at h
  split at h
  · exact List.dropLast_subset _ h
  · exact h

theorem mem_closedLines_of_next {pre post : List Text} {line : Text} (h : split isBreak t = pre ++ line :: post)
    (hpost : post ≠ []) : line ∈ closedLines t := by
  have hsplit : split isBreak t = pre ++ ([line] ++ post) := h
  exact mem_closedLines_of_split hsplit List.mem_cons_self (.inl hpost)

theorem mem_closedLines_of_mem_fields {line : Text} (h : line ∈ fields isBreak t) : line ∈ closedLines t := by
  obtain ⟨hline, hne⟩ := List.mem_filter.mp h
  obtain ⟨pre, post, hsplit⟩ := List.append_of_mem hline
  have hsplit' : split isBreak t = pre ++ ([line] ++ post) := hsplit
  refine mem_closedLines_of_split hsplit' List.mem_cons_self (.inr ?_)
  simpa using hne

theorem exists_mem_closedLines (ht : t ≠ []) : ∃ line, line ∈ closedLines t := by
  rcases split_cases isBreak t with hall | ⟨line, c, rest, rfl, hc, hline⟩
  · have hsplit : split isBreak t = [] ++ ([t] ++ []) := split_eq_singleton hall
    exact ⟨t, mem_closedLines_of_split hsplit List.mem_cons_self (.inr ht)⟩
  · have hsplit : split isBreak (line ++ c :: rest) = [] ++ ([line] ++ split isBreak rest) := by
      rw [split_append hc, split_eq_singleton hline]
      rfl
    exact ⟨line, mem_closedLines_of_split hsplit List.mem_cons_self (.inl (split_ne_nil isBreak rest))⟩

end Text

namespace Pattern

variable {before after : Option Char}

theorem isBreak_of_isLineStart (h : isLineStart true before after = true) {c : Char}
    (hc : before = some c) : isBreak c = true := by
  subst hc
  unfold isLineStart at h
  split at h
  · rename_i heq
    cases heq
  · rename_i heq
    rw [Option.some.inj heq]
    rfl
  · rename_i heq
    rw [Option.some.inj heq]
    rfl
  · cases h

theorem isBreak_of_isLineEnd (h : isLineEnd true before after = true) {c : Char}
    (hc : after = some c) : isBreak c = true := by
  subst hc
  unfold isLineEnd at h
  split at h
  · rename_i heq
    cases heq
  · rename_i heq
    rw [Option.some.inj heq]
    rfl
  · rename_i heq
    rw [Option.some.inj heq]
    rfl
  · cases h

end Pattern

/-- Every line holds more than an indent. -/
def Worded (t : Text) : Prop := ∀ line ∈ Text.closedLines t, ¬Indent line

theorem worded_of_not_isBare (h : ∀ line ∈ Text.closedLines t, Markers.code.isBare line = false) :
    Worded t :=
  fun line hline => not_indent_of_not_isBare (h line hline)

namespace Markers

open Pattern

variable {x m y t : Text}

theorem indent_of_fits_bareLine {before after : Option Char} (h : Fits code.bareLine before m after) :
    Indent m :=
  (fits_bareLine_iff.mp h).2.1

/-- What starts where a line starts and ends where a line ends is made of lines of the text. -/
theorem exists_split_of_edges {a b : Option Char} (before : Option Char)
    (hstart : isLineStart true (x.getLast?.or before) a = true) (hend : isLineEnd true b y.head? = true) :
    ∃ pre post, Text.split isBreak (x ++ (m ++ y)) = pre ++ (Text.split isBreak m ++ post) ∧
      (pre = [] ↔ x = []) ∧ (post = [] ↔ y = []) := by
  obtain ⟨pre, hpre, hx⟩ : ∃ pre, Text.split isBreak (x ++ (m ++ y)) = pre ++ Text.split isBreak (m ++ y) ∧
      (pre = [] ↔ x = []) := by
    rcases List.eq_nil_or_concat' x with rfl | ⟨x', c, rfl⟩
    · exact ⟨[], rfl, by simp⟩
    · have hc := isBreak_of_isLineStart hstart (c := c) (by simp)
      refine ⟨Text.split isBreak x', ?_, by simp [Text.split_ne_nil]⟩
      rw [List.append_assoc, List.singleton_append, Text.split_append hc]
  obtain ⟨post, hpost, hy⟩ : ∃ post, Text.split isBreak (m ++ y) = Text.split isBreak m ++ post ∧
      (post = [] ↔ y = []) := by
    cases y with
    | nil => exact ⟨[], by simp, by simp⟩
    | cons c y =>
      have hc := isBreak_of_isLineEnd hend (c := c) rfl
      exact ⟨Text.split isBreak y, Text.split_append hc, by simp [Text.split_ne_nil]⟩
  exact ⟨pre, post, by rw [hpre, hpost], hx, hy⟩

theorem exists_split_of_fits_bareLine (h : Fits code.bareLine x.getLast? m y.head?) :
    ∃ pre post, Text.split isBreak (x ++ (m ++ y)) = pre ++ (Text.split isBreak m ++ post) ∧
      (pre = [] ↔ x = []) ∧ (post = [] ↔ y = []) := by
  obtain ⟨hstart, -, hend⟩ := fits_bareLine_iff.mp h
  exact exists_split_of_edges none (by rwa [Option.or_none]) hend

theorem indent_of_mem_split {line : Text} (h : Indent m) (hline : line ∈ Text.split isBreak m) :
    Indent line :=
  h.of_mem_split (fun _ => isBlank_of_isBreak_ne) hline

end Markers

/-! ## Texts of which no line is an indent -/

namespace Leads

open Pattern

variable {leader : Pattern} {leads : Text → Prop} (h : Leads leader leads) {x m y t : Text}
include h

theorem indent_of_mem_split {line : Text} (hm : IndentOf leads m) (hline : line ∈ Text.split isBreak m) :
    IndentOf leads line :=
  hm.of_mem_split (fun hl => h.isLeaderChar_of_mem hl) (fun _ => isBlank_of_isBreak_ne) hline

theorem eq_nil_of_fits_bareLine {before : Option Char}
    (ht : ∀ line ∈ Text.closedLines (x ++ (m ++ y)), ¬IndentOf leads line)
    (hfits : Fits (Markers.ofLeader leader).bareLine (x.getLast?.or before) m y.head?) : m = [] := by
  by_contra hm
  obtain ⟨hstart, hindent, hend⟩ := h.fits_bareLine_iff.mp hfits
  obtain ⟨pre, post, hsplit, -, -⟩ := Markers.exists_split_of_edges (m := m) before hstart hend
  -- the first line of the match is followed by another one or is not empty
  rcases Text.split_cases isBreak m with hall | ⟨line, c, rest, rfl, hc, hline⟩
  · rw [Text.split_eq_singleton hall] at hsplit
    exact ht m (Text.mem_closedLines_of_split hsplit List.mem_cons_self (.inr hm)) hindent
  · have hsplit' : Text.split isBreak (line ++ c :: rest) = [line] ++ Text.split isBreak rest := by
      rw [Text.split_append hc, Text.split_eq_singleton hline]
    have hsplit'' : Text.split isBreak (x ++ (line ++ c :: rest ++ y)) =
        pre ++ ([line] ++ (Text.split isBreak rest ++ post)) := by
      rw [hsplit, hsplit', List.append_assoc]
    refine ht line (Text.mem_closedLines_of_split hsplit'' List.mem_cons_self (.inl ?_))
      (h.indent_of_mem_split hindent ?_)
    · simp [Text.split_ne_nil]
    · rw [hsplit']
      exact List.mem_cons_self

theorem exists_of_fits_separator {before after : Option Char}
    (hfits : Fits (Markers.ofLeader leader).separator before m after) :
    ∃ c u d, m = c :: (u ++ [d]) ∧ isBreak c = true ∧ isBreak d = true ∧
      ∀ line ∈ Text.split isBreak u, IndentOf leads line := by
  obtain ⟨z, a, k, z', rfl, hz, ha, hk, hz'⟩ := h.fits_separator_iff.mp hfits
  have hindent : IndentOf leads (a ++ k) :=
    ⟨a, k, rfl, all_isFiller_of_blank ha, hk⟩
  -- a carriage return is one more line break, with nothing next to it
  obtain ⟨u, hu, hsplit⟩ : ∃ u, a ++ k ++ z' = u ++ ['\n'] ∧ ∀ line ∈ Text.split isBreak u, IndentOf leads line := by
    rcases hz' with rfl | rfl
    · exact ⟨a ++ k, rfl, fun line hline => h.indent_of_mem_split hindent hline⟩
    · refine ⟨a ++ k ++ ['\r'], by simp, fun line hline => ?_⟩
      rw [Text.split_append rfl, Text.split_nil, List.mem_append, List.mem_singleton] at hline
      rcases hline with hline | rfl
      · exact h.indent_of_mem_split hindent hline
      · exact .nil
  rcases hz with rfl | rfl
  · exact ⟨'\n', u, '\n', by rw [hu]; rfl, rfl, rfl, hsplit⟩
  · refine ⟨'\r', '\n' :: u, '\n', by rw [hu]; rfl, rfl, rfl, fun line hline => ?_⟩
    rw [Text.split_cons_of_sep rfl] at hline
    rcases List.mem_cons.mp hline with rfl | hline
    · exact .nil
    · exact hsplit line hline

theorem not_fits_separator {before after : Option Char}
    (ht : ∀ pre line post, Text.split isBreak t = pre ++ line :: post → pre ≠ [] → post ≠ [] → ¬IndentOf leads line)
    (hsplit : t = x ++ (m ++ y)) (hfits : Fits (Markers.ofLeader leader).separator before m after) : False := by
  obtain ⟨c, u, d, rfl, hc, hd, hindent⟩ := h.exists_of_fits_separator hfits
  obtain ⟨line, ls, hcons⟩ := List.exists_cons_of_ne_nil (Text.split_ne_nil isBreak u)
  have hlines : Text.split isBreak t = Text.split isBreak x ++ line :: (ls ++ Text.split isBreak y) := by
    have happend : t = x ++ c :: (u ++ d :: y) := by rw [hsplit]; simp
    rw [happend, Text.split_append hc, Text.split_append hd, hcons, List.cons_append]
  refine ht _ line _ hlines (Text.split_ne_nil _ _) (by simp [Text.split_ne_nil]) (hindent line ?_)
  rw [hcons]
  exact List.mem_cons_self

end Leads

end Reflow
