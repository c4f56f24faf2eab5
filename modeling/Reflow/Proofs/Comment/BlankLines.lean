import Reflow.Proofs.Comment.Stretches

/-!
# Blank lines in front of words

White space lines that come before lines with words.  The line feed after the first one starts a separator, if there
is another blank line, and the separator goes up to the words (`Leads.cuts_separator_append`).  A single blank line
stays in one paragraph with the words.  It is a bare line if it holds something, and the line feed after it is left
with the words (`Leads.sections_bareLine_append`); if it is empty there is no bare line (`Leads.barren_bareLine_cons`).
-/

namespace Reflow.Leads

open Pattern

variable {leader : Pattern} {leads : Text → Prop} (h : Leads leader leads) {b s q e rest : Text} {c : Char}
include h

/-! ## Bare lines -/

section

variable (hne : q ≠ []) (hhead : ∀ d ∈ q.head?, isBreak d = false)
  (hq : ∀ line ∈ Text.closedLines q, ¬IndentOf leads line)
include hne hhead hq

/-- An indent that goes on after a line break does not end where a line with words does. -/
theorem not_isLineEnd_of_indent (hc : isBreak c = true) (hindent : IndentOf leads (b ++ c :: e))
    (hsplit : q = e ++ rest) {before : Option Char}
    (hend : isLineEnd true ((b ++ c :: e).getLast?.or before) rest.head? = true) : False := by
  have hlast : (b ++ c :: e).getLast?.or before = (e.getLast?.or (some c)) := by
    rw [List.getLast?_append_of_ne_nil _ (List.cons_ne_nil _ _), ← List.singleton_append, List.getLast?_append]
    simp
  rw [hlast] at hend
  have hstart : isLineStart true (some c) q.head? = true := by
    obtain ⟨d, q', rfl⟩ := List.exists_cons_of_ne_nil hne
    exact isLineStart_of_isBreak hc (hhead d rfl)
  obtain ⟨hblank, hspace⟩ := isBlank_of_isBreak_ne hc
  have hrest : IndentOf leads e := (hindent.split (fun hl => h.isLeaderChar_of_mem hl) hblank hspace).2
  have hfits : Fits (Markers.ofLeader leader).bareLine (([] : Text).getLast?.or (some c)) e rest.head? := by
    refine h.fits_bareLine_iff.mpr ⟨?_, hrest, hend⟩
    rwa [← List.head?_append, ← hsplit]
  have hnil := h.eq_nil_of_fits_bareLine (x := []) (by rwa [List.nil_append, ← hsplit]) hfits
  rw [hnil, List.nil_append] at hsplit
  rw [hnil, ← hsplit] at hend
  obtain ⟨d, hd⟩ : ∃ d, q.head? = some d := ⟨_, List.head?_eq_some_head hne⟩
  have hbreak := isBreak_of_isLineEnd hend hd
  rw [hhead d hd] at hbreak
  cases hbreak

theorem barren_bareLine_cons (hc : isBreak c = true) (before : Option Char) :
    Barren (Markers.ofLeader leader).bareLine before (c :: q) [] := by
  have hbreak : Barren (Markers.ofLeader leader).bareLine before [c] (q ++ []) := by
    intro a c' b m rest hgap hsplit hfits
    obtain ⟨rfl, rfl, rfl⟩ : a = [] ∧ c' = c ∧ b = [] := by
      cases a <;> simp_all
    cases m with
    | nil => rfl
    | cons e m =>
      obtain ⟨rfl, htail⟩ := List.cons.inj hsplit
      obtain ⟨-, hindent, hend⟩ := h.fits_bareLine_iff.mp hfits
      exact (h.not_isLineEnd_of_indent hne hhead hq hc (b := []) hindent (by simpa using htail) hend).elim
  exact hbreak.append (h.barren_bareLine hq _)

theorem sections_bareLine_append (hb : Blank b) (hbreak : ∀ c ∈ b, isBreak c = false) (hbne : b ≠ []) :
    (Markers.ofLeader leader).bareLine.sections (b ++ '\n' :: q) = ([⟨[], b⟩], '\n' :: q) := by
  obtain ⟨c, hlast⟩ : ∃ c, b.getLast? = some c := ⟨_, List.getLast?_eq_some_getLast hbne⟩
  have hlongest : LongestAt (Markers.ofLeader leader).bareLine none (b ++ '\n' :: q) b ('\n' :: q) := by
    refine ⟨rfl, h.fits_bareLine_iff.mpr ⟨rfl, .of_blank hb, ?_⟩, fun n rest hn hfits => ?_⟩
    · rw [hlast]
      exact isLineEnd_of_isBreak (hbreak c (List.mem_of_getLast? hlast)) rfl
    · by_contra hlt
      obtain ⟨c, e, rfl, hsplit⟩ := exists_cons_of_shorter hn.symm (Nat.not_le.mp hlt)
      obtain ⟨rfl, hrest⟩ := List.cons.inj hsplit
      obtain ⟨-, hindent', hend⟩ := h.fits_bareLine_iff.mp hfits
      exact h.not_isLineEnd_of_indent hne hhead hq rfl hindent' hrest hend
  have hsectioned : Sectioned (Markers.ofLeader leader).bareLine none [⟨[], b⟩] ('\n' :: q) := by
    refine ⟨⟨barren_nil, hlongest, h.barren_bareLine_cons hne hhead hq rfl _⟩, ?_⟩
    rw [List.forall_mem_singleton]
    exact hbne
  obtain ⟨hcuts, hlast⟩ := (sectioned_sections h.longest_bareLine (b ++ '\n' :: q)).unique hsectioned
    (uncut_sections _ _)
  exact Prod.ext hcuts hlast

end

/-! ## Separators -/

/-- No separator ends after a single blank line in front of words. -/
theorem cuts_separator_single (hq : ∀ line ∈ Text.closedLines q, ¬IndentOf leads line)
    (hbreak : ∀ c ∈ b, isBreak c = false) :
    (Markers.ofLeader leader).separator.cuts (b ++ '\n' :: q) = ([], b ++ '\n' :: q) := by
  refine h.cuts_separator fun pre line post hlines hpre hpost => ?_
  rw [Text.split_append rfl, Text.split_eq_singleton hbreak, List.singleton_append] at hlines
  obtain ⟨d, pre, rfl⟩ := List.exists_cons_of_ne_nil hpre
  obtain ⟨-, hlines⟩ := List.cons.inj hlines
  exact hq line (Text.mem_closedLines_of_next hlines hpost)

/-- The separator that starts after the first of several blank lines goes up to the words. -/
theorem cuts_separator_append (hq : ∀ line ∈ Text.closedLines q, ¬IndentOf leads line)
    (hbreak : ∀ c ∈ b, isBreak c = false) (hs : Blank s) :
    (Markers.ofLeader leader).separator.cuts (b ++ '\n' :: (s ++ '\n' :: q)) = ([⟨b, '\n' :: (s ++ ['\n'])⟩], q) := by
  have hlongest : LongestAt (Markers.ofLeader leader).separator (b.getLast?.or none)
      ('\n' :: (s ++ ['\n']) ++ q) ('\n' :: (s ++ ['\n'])) q := by
    refine ⟨rfl, h.fits_separator_iff.mpr ⟨['\n'], s, [], ['\n'], by simp, .inl rfl, hs, ?_, .inl rfl⟩,
      fun n rest hn hfits => ?_⟩
    · exact ⟨[], [], [], rfl, .inl rfl, rfl, .inl rfl⟩
    · by_contra hlt
      obtain ⟨d, e, rfl, hsplit⟩ := exists_cons_of_shorter hn.symm (Nat.not_le.mp hlt)
      -- a longer one would hold the first line with words
      obtain ⟨c, u, c', hm, hc, hc', hindent⟩ := h.exists_of_fits_separator hfits
      obtain ⟨e', f, he⟩ := (List.eq_nil_or_concat' (d :: e)).resolve_left (List.cons_ne_nil _ _)
      rw [he] at hm
      obtain ⟨-, hm⟩ := List.cons.inj hm
      obtain ⟨rfl, hf⟩ : s ++ '\n' :: e' = u ∧ f = c' := by
        have hm' : (s ++ '\n' :: e') ++ [f] = u ++ [c'] := by simpa using hm
        exact (List.append_inj' hm' rfl).imp_right List.singleton_inj.mp
      have hq' : q = e' ++ f :: rest := by rw [hsplit, ← List.cons_append, he]; simp
      obtain ⟨line, ls, hcons⟩ := List.exists_cons_of_ne_nil (Text.split_ne_nil isBreak e')
      refine hq line ?_ (hindent line ?_)
      · have hlines : Text.split isBreak q = [] ++ ([line] ++ (ls ++ Text.split isBreak rest)) := by
          rw [hq', Text.split_append (hf ▸ hc'), hcons]
          rfl
        exact Text.mem_closedLines_of_split hlines List.mem_cons_self (.inl (by simp [Text.split_ne_nil]))
      · rw [Text.split_append rfl, hcons]
        exact List.mem_append_right _ List.mem_cons_self
  have hsectioned : Sectioned (Markers.ofLeader leader).separator none [⟨b, '\n' :: (s ++ ['\n'])⟩] q := by
    refine ⟨⟨?_, hlongest, h.barren_separator ?_ _⟩, ?_⟩
    · intro a c b' m rest hgap hsplit hfits
      obtain ⟨d, u, d', rfl, hd, -⟩ := h.exists_of_fits_separator hfits
      obtain ⟨rfl, -⟩ := List.cons.inj hsplit
      rw [hbreak c (by rw [show b = _ from hgap]; simp)] at hd
      cases hd
    · intro pre line post hlines _ hpost
      exact hq line (Text.mem_closedLines_of_next hlines hpost)
    · rw [List.forall_mem_singleton]
      exact List.cons_ne_nil _ _
  rw [← sections_eq_cuts h.longest_separator fun _ _ => h.not_fits_separator_nil]
  obtain ⟨hcuts, hlast⟩ := (sectioned_sections h.longest_separator (b ++ '\n' :: (s ++ '\n' :: q))).unique hsectioned
    (by rw [uncut_sections]; simp [uncut])
  exact Prod.ext hcuts hlast

end Reflow.Leads
