import Reflow.Proofs.Comment.Bare
import Reflow.Proofs.Comment.Separator

/-!
# Cutting texts without words

Where the cuts fall in a text of wordless lines: a separator starts at the first line feed if another
one comes after it (`Markers.exists_cut_of_wordless`), and a paragraph of at most two lines is cut at
its bare lines (`Markers.cuts_bareLine_of_indent` and `Markers.cuts_bareLine_pair`).
-/

namespace Reflow.Markers

open Pattern

variable {a b t : Text}

/-! ## Separators -/

theorem cuts_separator_of_few (hcr : '\r' ∉ t)
    (h : ∀ x y z, t ≠ x ++ '\n' :: (y ++ '\n' :: z)) : code.separator.cuts t = ([], t) := by
  refine cuts_separator_of_none ?_
  cases hfind : code.separator.find? false none t with
  | none => rfl
  | some m =>
    obtain ⟨gap, hit, rest⟩ := m
    obtain ⟨rfl, hlongest, -, -⟩ := found_of_find? longest_separator hfind
    obtain ⟨w, rfl, -⟩ := (fits_separator_lf_iff fun h => hcr (by simp [h])).mp hlongest.fits
    exact absurd (by simp) (h gap w rest)

/-- A line between two line feeds starts a separator with the first of them. -/
theorem exists_cut_of_wordless {c : Text} (ha : '\n' ∉ a) (hb : Wordless b)
    (hcr : '\r' ∉ a ++ '\n' :: (b ++ '\n' :: c)) :
    ∃ w rest, a ++ '\n' :: (b ++ '\n' :: c) = a ++ ('\n' :: (w ++ '\n' :: rest)) ∧
      code.separator.cuts (a ++ '\n' :: (b ++ '\n' :: c)) =
        (⟨a, '\n' :: (w ++ ['\n'])⟩ :: (code.separator.cuts rest).1, (code.separator.cuts rest).2) := by
  have hfits : Fits code.separator (a.getLast?.or none) ('\n' :: (b ++ ['\n'])) c.head? := by
    refine (fits_separator_lf_iff ?_).mpr ⟨b, rfl, hb⟩
    simp_all
  obtain ⟨hit, rest, hlongest⟩ : ∃ hit rest, LongestAt code.separator (a.getLast?.or none)
      ('\n' :: (b ++ '\n' :: c)) hit rest := by
    cases h : code.separator.length? (a.getLast?.or none) ('\n' :: (b ++ '\n' :: c)) with
    | none => exact absurd hfits (length?_eq_none_iff.mp h _ c (by simp))
    | some n =>
      obtain ⟨hit, rest, h, -⟩ := (length?_eq_some_iff longest_separator).mp h
      exact ⟨hit, rest, h⟩
  have hsplit := hlongest.split
  obtain ⟨w, rfl, -⟩ := (fits_separator_lf_iff fun h => hcr (by rw [hsplit]; simp [h])).mp hlongest.fits
  have hfound : Found code.separator false none (a ++ '\n' :: (b ++ '\n' :: c))
      ⟨a, '\n' :: (w ++ ['\n']), rest⟩ := by
    refine ⟨by rw [hsplit], by rwa [hsplit] at hlongest, by simp, ?_⟩
    -- before the first line feed nothing fits
    rintro x d y m rest' rfl hm hfits
    exfalso
    obtain ⟨z, rfl, -⟩ := (fits_separator_lf_iff fun h => hcr (by
      have : '\r' ∈ d :: (y ++ ('\n' :: (w ++ ['\n']) ++ rest)) := by rw [hm]; simp [h]
      rw [hsplit]
      simp_all)).mp hfits
    obtain ⟨rfl, -⟩ := List.cons.inj hm
    exact ha (by simp)
  refine ⟨w, rest, by rw [hsplit]; simp, ?_⟩
  rw [cuts_separator_of_some (hfound.find?_eq longest_separator)]

/-! ## Bare lines -/

theorem cutsFrom_bareLine_nil (before : Option Char) :
    code.bareLine.cutsFrom true before [] = ([], []) :=
  cutsFrom_eq_of_none (by simp [find?])

theorem cuts_bareLine_of_indent (h : Indent t) : code.bareLine.cuts t = ([⟨[], t⟩], []) := by
  have hfits : Fits code.bareLine none t none := fits_bareLine_iff.mpr ⟨rfl, h, rfl⟩
  have hfound : Found code.bareLine false none t ⟨[], t, []⟩ :=
    ⟨by simp, by simpa using longestAt_whole hfits, by simp, unmatched_nil _⟩
  rw [cuts, cutsFrom_eq_of_some (hfound.find?_eq longest_bareLine)]
  simp only [cutsFrom_bareLine_nil]

theorem cuts_bareLine_pair (ha : Indent a) (hb : Indent b) (hne : a ≠ [])
    (hbreak : ∀ c ∈ a ++ b, isBreak c = false) (h : ¬Indent (a ++ '\n' :: b)) :
    code.bareLine.cuts (a ++ '\n' :: b) = ([⟨[], a⟩, ⟨['\n'], b⟩], []) := by
  obtain ⟨z, hz⟩ : ∃ z, a.getLast? = some z := ⟨_, List.getLast?_eq_some_getLast hne⟩
  have hzbreak : isBreak z = false := hbreak z (List.mem_append_left _ (List.mem_of_getLast? hz))
  have hfirst : Found code.bareLine false none (a ++ '\n' :: b) ⟨[], a, '\n' :: b⟩ := by
    refine ⟨rfl, ?_, by simp, unmatched_nil _⟩
    refine ⟨rfl, fits_bareLine_iff.mpr ⟨rfl, ha, ?_⟩, fun n rest hn hfits => ?_⟩
    · have hzcr : z ≠ '\r' := by
        rintro rfl
        cases hzbreak
      simp [hz, isLineEnd, hzcr]
    · -- a longer match would end within the second line or take up both
      by_contra hlt
      rw [Nat.not_le] at hlt
      obtain ⟨d, e, rfl, hde⟩ := exists_cons_of_shorter hn.symm hlt
      obtain ⟨rfl, rfl⟩ := List.cons.inj hde
      have hindent := indent_of_fits_bareLine hfits
      cases rest with
      | nil => exact h (by simpa using hindent)
      | cons f rest =>
        have := isBreak_of_isLineEnd (fits_bareLine_iff.mp hfits).2.2 (c := f) rfl
        rw [hbreak f (by simp)] at this
        cases this
  have hsecond : Found code.bareLine true (some z) ('\n' :: b) ⟨['\n'], b, []⟩ := by
    refine ⟨by simp, ?_, by simp, ?_⟩
    · have hfits : Fits code.bareLine (some '\n') b none := fits_bareLine_iff.mpr ⟨rfl, hb, rfl⟩
      simpa using longestAt_whole hfits
    · refine unmatched_cons_iff.mpr ⟨fun m rest _ hfits => ?_, unmatched_nil _⟩
      have := isBreak_of_isLineStart (fits_bareLine_iff.mp hfits).1 (c := z) rfl
      rw [hzbreak] at this
      cases this
  rw [cuts, cutsFrom_eq_of_some (hfirst.find?_eq longest_bareLine)]
  simp only [List.nil_append, hz, Option.some_or]
  rw [cutsFrom_eq_of_some (hsecond.find?_eq longest_bareLine)]
  simp only [cutsFrom_bareLine_nil]

end Reflow.Markers
