import Reflow.Proofs.Comment.Line

/-!
# Between two paragraphs

In a text without carriage returns the paragraphs are cut at `LF t LF` with a wordless `t`.  Cutting
before a line with words depends on nothing after it (`Markers.cuts_append`): the cuts of two texts
that are joined by a wordless line are those of either, with the cut at that line between them.
-/

namespace Reflow

/-- Every line that ends a text that has a line feed holds words. -/
def EndsInWords (t : Text) : Prop :=
  ∀ x y, t = x ++ '\n' :: y → '\n' ∉ y → ¬Indent y

/-- No line feed comes before the first line with words. -/
def StartsInWords (t : Text) : Prop :=
  ∀ x y, t = x ++ '\n' :: y → ¬Wordless x

theorem EndsInWords.of_append {x t : Text} (h : EndsInWords (x ++ t)) : EndsInWords t := by
  rintro a b rfl
  exact h (x ++ a) b (by simp)

namespace Markers

open Pattern

variable {before after : Option Char} {m t : Text}

theorem fits_separator_lf_iff (hcr : '\r' ∉ m) :
    Fits code.separator before m after ↔ ∃ t, m = '\n' :: (t ++ ['\n']) ∧ Wordless t := by
  rw [fits_separator_iff]
  constructor
  · rintro ⟨x, t, y, rfl, hx, ht, hy⟩
    rcases hx with rfl | rfl
    · rcases hy with rfl | rfl
      · exact ⟨t, rfl, ht⟩
      · simp at hcr
    · simp at hcr
  · rintro ⟨t, rfl, ht⟩
    exact ⟨['\n'], t, ['\n'], rfl, .inl rfl, ht, .inl rfl⟩

theorem not_fits_separator_nil : ¬Fits code.separator before [] after := by
  rw [fits_separator_iff]
  rintro ⟨x, t, y, h, hx, -⟩
  rcases hx with rfl | rfl <;> simp at h

theorem fits_separator_congr (before' after' : Option Char)
    (h : Fits code.separator before m after) : Fits code.separator before' m after' := by
  rw [fits_separator_iff] at h ⊢
  exact h

theorem longestAt_separator_congr (before' : Option Char) {rest : Text}
    (h : LongestAt code.separator before t m rest) : LongestAt code.separator before' t m rest :=
  ⟨h.split, fits_separator_congr _ _ h.fits,
    fun n rest' hn hfits => h.le n rest' hn (fits_separator_congr _ _ hfits)⟩

theorem found_separator_congr {fresh fresh' : Bool} {m : Match} (before' : Option Char)
    (h : Found code.separator fresh before t m) : Found code.separator fresh' before' t m := by
  refine ⟨h.split, longestAt_separator_congr _ h.longest, fun _ _ hempty => ?_,
    fun a c b n rest hgap hsplit hfits => ?_⟩
  · have := h.longest.fits
    rw [hempty] at this
    exact not_fits_separator_nil this
  · obtain ⟨-, -, rfl⟩ := h.unmatched a c b n rest hgap hsplit (fits_separator_congr _ _ hfits)
    exact absurd hfits not_fits_separator_nil

theorem find?_separator_congr (fresh fresh' : Bool) (before before' : Option Char) (t : Text) :
    code.separator.find? fresh before t = code.separator.find? fresh' before' t := by
  ext m
  rw [find?_eq_some_iff longest_separator, find?_eq_some_iff longest_separator]
  exact ⟨found_separator_congr before', found_separator_congr before⟩

theorem cutsFrom_separator_eq_cuts (fresh : Bool) (before : Option Char) (t : Text) :
    code.separator.cutsFrom fresh before t = code.separator.cuts t := by
  rw [cuts]
  cases h : code.separator.find? fresh before t with
  | none =>
    rw [cutsFrom_eq_of_none h]
    rw [find?_separator_congr fresh false before none] at h
    rw [cutsFrom_eq_of_none h]
  | some m =>
    rw [cutsFrom_eq_of_some h]
    have hne : m.gap ++ m.hit ≠ [] := by
      have := (found_of_find? longest_separator h).longest.fits
      intro hempty
      rw [(List.append_eq_nil_iff.mp hempty).2] at this
      exact not_fits_separator_nil this
    rw [find?_separator_congr fresh false before none] at h
    rw [cutsFrom_eq_of_some h, List.getLast?_eq_some_getLast hne]
    rfl

theorem cuts_separator_of_none (h : code.separator.find? false none t = none) :
    code.separator.cuts t = ([], t) :=
  cutsFrom_eq_of_none h

theorem cuts_separator_of_some {m : Match} (h : code.separator.find? false none t = some m) :
    code.separator.cuts t =
      (⟨m.gap, m.hit⟩ :: (code.separator.cuts m.rest).1, (code.separator.cuts m.rest).2) := by
  rw [cuts, cutsFrom_eq_of_some h]
  simp only [cutsFrom_separator_eq_cuts]

/-! ## A wordless line between two texts -/

variable {p s q : Text}

theorem indent_of_mem_lines {w line : Text} (hw : Indent w) (h : line ∈ Text.lines w) :
    Indent line := by
  refine hw.of_mem_split (fun c hc => ?_) h
  rw [decide_eq_true_eq] at hc
  subst hc
  decide

theorem mem_lines_of_eq {w d line : Text} (h : w ++ ['\n'] = t ++ '\n' :: d) (hline : line ∈ Text.lines t) :
    line ∈ Text.lines w := by
  rcases append_eq_append_cons h with ⟨e, rfl, he⟩ | ⟨e, rfl, -⟩
  · cases e with
    | nil => simpa using hline
    | cons c e => simp at he
  · rw [Text.lines_append]
    exact List.mem_append_left _ hline

/-- A separator that starts within a text that ends in words ends within it. -/
theorem exists_rest_of_fits_separator (ht : t ≠ []) (hwords : EndsInWords t)
    (hcr : '\r' ∉ t ++ '\n' :: q) {rest : Text} (hsplit : t ++ '\n' :: q = m ++ rest)
    (hfits : Fits code.separator before m after) :
    ∃ rest', t = m ++ rest' ∧ rest = rest' ++ '\n' :: q := by
  rw [hsplit, List.mem_append, not_or] at hcr
  obtain ⟨w, rfl, hw⟩ := (fits_separator_lf_iff hcr.1).mp hfits
  rcases List.append_eq_append_iff.mp hsplit with ⟨d, hm, hq⟩ | ⟨d, hm, hq⟩
  · cases d with
    | nil => exact ⟨[], by simpa using hm.symm, by simpa using hq.symm⟩
    | cons c d =>
      -- the last line of the text would be wordless
      exfalso
      obtain ⟨rfl, -⟩ := List.cons.inj hq
      obtain ⟨e, t', rfl⟩ := List.exists_cons_of_ne_nil ht
      obtain ⟨rfl, hw'⟩ := List.cons.inj hm
      obtain ⟨x, y, hxy, hy⟩ := Text.exists_last_line (List.mem_cons_self (a := '\n') (l := t'))
      refine hwords x y hxy hy (indent_of_mem_lines hw.indent (mem_lines_of_eq hw' ?_))
      cases x with
      | nil =>
        obtain ⟨-, rfl⟩ := List.cons.inj hxy
        rw [Text.lines_eq_singleton hy]
        exact List.mem_cons_self
      | cons c x =>
        simp only [List.cons_append, List.cons.injEq] at hxy
        rw [hxy.2]
        rw [Text.lines_append, Text.lines_eq_singleton hy]
        exact List.mem_append_right _ List.mem_cons_self
  · exact ⟨d, hm, hq⟩

theorem longestAt_separator_append (ht : t ≠ []) (hwords : EndsInWords t)
    (hcr : '\r' ∉ t ++ '\n' :: q) {rest : Text} (h : LongestAt code.separator before t m rest) :
    LongestAt code.separator before (t ++ '\n' :: q) m (rest ++ '\n' :: q) := by
  refine ⟨by rw [h.split, List.append_assoc], fits_separator_congr _ _ h.fits, fun n rest' hn hfits => ?_⟩
  obtain ⟨rest'', ht', -⟩ := exists_rest_of_fits_separator ht hwords hcr hn hfits
  exact h.le n rest'' ht' (fits_separator_congr _ _ hfits)

/-- No separator starts within a text that ends in words because of what follows that text. -/
theorem unmatched_separator_append {gap later : Text} (hwords : EndsInWords (gap ++ later))
    (hcr : '\r' ∉ gap ++ later ++ '\n' :: q)
    (h : Unmatched code.separator false before gap later) :
    Unmatched code.separator false before gap (later ++ '\n' :: q) := by
  intro a c b n rest hgap hsplit hfits
  subst hgap
  have hwords' : EndsInWords (c :: (b ++ later)) := EndsInWords.of_append (x := a) (by simpa using hwords)
  have hcr' : '\r' ∉ c :: (b ++ later) ++ '\n' :: q := fun hmem => hcr (by simp_all)
  obtain ⟨rest', ht, -⟩ := exists_rest_of_fits_separator (by simp) hwords' hcr' (by simpa using hsplit) hfits
  exact h a c b n rest' rfl ht (fits_separator_congr _ _ hfits)

theorem longestAt_separator (hs : Wordless s) (hq : StartsInWords q)
    (hcr : '\r' ∉ '\n' :: (s ++ '\n' :: q)) :
    LongestAt code.separator before ('\n' :: (s ++ '\n' :: q)) ('\n' :: (s ++ ['\n'])) q := by
  have hcr' : '\r' ∉ '\n' :: (s ++ ['\n']) := by
    simp only [List.mem_cons, List.mem_append, not_or] at hcr ⊢
    exact ⟨hcr.1, hcr.2.1, by decide, by simp⟩
  refine ⟨by simp, (fits_separator_lf_iff hcr').mpr ⟨s, rfl, hs⟩, fun n rest hn hfits => ?_⟩
  have hcrn : '\r' ∉ n := fun hmem => hcr (by rw [hn]; exact List.mem_append_left _ hmem)
  obtain ⟨w, rfl, hw⟩ := (fits_separator_lf_iff hcrn).mp hfits
  by_contra hlt
  rw [Nat.not_le] at hlt
  have heq : '\n' :: (w ++ ['\n']) ++ rest = '\n' :: (s ++ ['\n']) ++ q := by rw [← hn]; simp
  obtain ⟨c, d, hcd, rfl⟩ := exists_cons_of_shorter heq hlt
  -- a longer one would hold the first line of what follows
  have hw' : w ++ ['\n'] = s ++ '\n' :: (c :: d) := by simpa using hcd
  rcases append_eq_append_cons hw' with ⟨e, -, he⟩ | ⟨e, rfl, he⟩
  · have := congrArg List.length he
    simp only [List.length_append, List.length_cons, List.length_nil] at this
    omega
  · have hsplit : c :: (d ++ rest) = e ++ '\n' :: rest := by
      rw [← List.cons_append, he, List.append_assoc]
      rfl
    exact hq e rest hsplit (hw.split (by decide) (by decide)).2

/-- Cuts before a wordless line and after it do not depend on each other. -/
theorem cuts_append (hp : EndsInWords p) (hs : Wordless s) (hq : StartsInWords q)
    (hcr : '\r' ∉ p ++ '\n' :: (s ++ '\n' :: q)) :
    code.separator.cuts (p ++ '\n' :: (s ++ '\n' :: q)) =
      ((code.separator.cuts p).1 ++
          ⟨(code.separator.cuts p).2, '\n' :: (s ++ ['\n'])⟩ :: (code.separator.cuts q).1,
        (code.separator.cuts q).2) := by
  generalize hn : p.length = n
  induction n using Nat.strong_induction_on generalizing p with
  | _ n ih =>
    cases hfind : code.separator.find? false none p with
    | none =>
      have hfound : Found code.separator false none (p ++ '\n' :: (s ++ '\n' :: q))
          ⟨p, '\n' :: (s ++ ['\n']), q⟩ := by
        refine ⟨by simp, ?_, by simp, ?_⟩
        · have hcr' : '\r' ∉ '\n' :: (s ++ '\n' :: q) := fun h => hcr (List.mem_append_right _ h)
          have h : LongestAt code.separator (p.getLast?.or none) ('\n' :: (s ++ '\n' :: q))
            ('\n' :: (s ++ ['\n'])) q := longestAt_separator hs hq hcr'
          simpa using h
        · have h := unmatched_of_find?_eq_none longest_separator hfind
          simpa using unmatched_separator_append (by simpa using hp) (by simpa using hcr) h
      rw [cuts_separator_of_some (hfound.find?_eq longest_separator), cuts_separator_of_none hfind]
      rfl
    | some m =>
      obtain ⟨gap, hit, rest⟩ := m
      obtain ⟨hsplit, hlongest, hproper, hgap⟩ := found_of_find? longest_separator hfind
      simp only at hsplit hlongest hproper hgap
      subst hsplit
      have hne : hit ≠ [] := by
        rintro rfl
        exact not_fits_separator_nil hlongest.fits
      have hfound : Found code.separator false none (gap ++ (hit ++ rest) ++ '\n' :: (s ++ '\n' :: q))
          ⟨gap, hit, rest ++ '\n' :: (s ++ '\n' :: q)⟩ := by
        refine ⟨by simp, ?_, by simp, ?_⟩
        · have h := longestAt_separator_append (q := s ++ '\n' :: q) (by simp [hne]) hp.of_append
            (fun h => hcr (by simp_all)) hlongest
          simpa using h
        · have h := unmatched_separator_append (q := s ++ '\n' :: q) hp hcr hgap
          simpa using h
      rw [cuts_separator_of_some (hfound.find?_eq longest_separator), cuts_separator_of_some hfind]
      have hlen : rest.length < n := by
        have := List.length_pos_iff.mpr hne
        rw [← hn, List.length_append, List.length_append]
        omega
      have hwords : EndsInWords rest := by
        refine EndsInWords.of_append (x := gap ++ hit) ?_
        rwa [List.append_assoc]
      have := ih rest.length hlen hwords (fun h => hcr (by simp_all)) rfl
      simp only [this]
      rfl

end Markers

end Reflow
