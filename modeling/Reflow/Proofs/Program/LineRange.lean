import Reflow.Program.Request
import Reflow.Proofs.Comment.ListSymbol
import Reflow.Proofs.Text.Numeral

/-!
# Ranges of lines in writing

A range of lines is read if and only if it is written as one (`LineRange.read?_eq_some_iff`): two numerals with white
space around them and a colon between them, the first not zero and not above the second.  Any other text is refused, and
the printed ranges are among those that are read (`WrapRequest.scope_of_lines`).
-/

namespace Reflow

/-- A numeral with white space around it. -/
def Numeral.Padded (t : Text) (n : Nat) : Prop :=
  ∃ a u b, t = a ++ (u ++ b) ∧ Blank a ∧ Spells u n ∧ Blank b

structure LineRange.Writes (t : Text) (first last : Nat) : Prop where
  parts : ∃ a b, t = a ++ ':' :: b ∧ Numeral.Padded a first ∧ Numeral.Padded b last
  pos : 1 ≤ first
  le : first ≤ last
  lt : last < wordBound

def LineRange.print (first last : Nat) : Text :=
  Nat.toDigits 10 first ++ ':' :: Nat.toDigits 10 last

variable {t a b : Text} {c : Char} {n first last : Nat}

namespace Numeral

theorem not_isBlank_of_isDigit (h : c.isDigit = true) : isBlank c = false := by
  have hrange : inRanges [('0'.toNat, '9'.toNat)] c = true := by
    simpa [inRanges] using Char.isDigit_iff_toNat.mp h
  exact not_inRanges_of_inRanges (by decide) hrange

theorem Spells.not_isBlank (h : Spells t n) : ∀ c ∈ t, isBlank c = false := by
  intro c hc
  rcases h.mem_cases hc with rfl | hdigit
  · rfl
  · exact not_isBlank_of_isDigit hdigit

theorem Spells.padded (h : Spells t n) : Padded t n :=
  ⟨[], t, [], by simp, rfl, h, rfl⟩

theorem Padded.not_mem_colon (h : Padded t n) : ':' ∉ t := by
  obtain ⟨a, u, b, rfl, ha, hu, hb⟩ := h
  simp only [List.mem_append, not_or]
  refine ⟨fun hc => ?_, fun hc => ?_, fun hc => ?_⟩
  · cases isBlank_of_mem ha hc
  · rcases hu.mem_cases hc with hplus | hdigit
    · cases hplus
    · cases hdigit
  · cases isBlank_of_mem hb hc

theorem read?_trim_eq_some_iff : read? (Text.trim t) = some n ↔ Padded t n ∧ n < wordBound := by
  rw [read?_eq_some_iff]
  refine and_congr_left fun _ => ⟨fun h => ?_, ?_⟩
  · obtain ⟨a, b, ht, ha, hb⟩ := Text.exists_strip isBlank t
    exact ⟨a, _, b, ht, List.all_eq_true.mpr ha, h, List.all_eq_true.mpr hb⟩
  · rintro ⟨a, u, b, rfl, ha, hu, hb⟩
    have htrim : Text.trim (a ++ (u ++ b)) = u :=
      Text.strip_append (List.all_eq_true.mp ha) (List.all_eq_true.mp hb)
        (fun c hc => hu.not_isBlank c (List.mem_of_head? hc)) (fun c hc => hu.not_isBlank c (List.mem_of_getLast? hc))
    rwa [htrim]

end Numeral

namespace LineRange

theorem cut?_eq_some_iff : cut? t = some (a, b) ↔ t = a ++ ':' :: b ∧ ':' ∉ a := by
  unfold cut?
  constructor
  · intro h
    have hsplit := List.takeWhile_append_dropWhile (p := fun c => decide (c ≠ ':')) (l := t)
    split at h
    next => cases h
    next c rest hdrop =>
      obtain ⟨rfl, rfl⟩ := Prod.mk.inj (Option.some.inj h)
      have hc : c = ':' := by
        have hhead := List.head?_dropWhile_not (fun c => decide (c ≠ ':')) t
        rw [hdrop] at hhead
        simpa using hhead
      rw [hdrop, hc] at hsplit
      refine ⟨hsplit.symm, fun hmem => ?_⟩
      exact absurd (List.all_eq_true.mp List.all_takeWhile _ hmem) (by decide)
  · rintro ⟨rfl, ha⟩
    have hall : ∀ c ∈ a, decide (c ≠ ':') = true :=
      fun c hc => decide_eq_true (ne_of_mem_of_not_mem hc ha)
    rw [List.dropWhile_append_of_pos hall, List.dropWhile_cons_of_neg (by decide), List.takeWhile_append_of_pos hall,
      List.takeWhile_cons_of_neg (by decide), List.append_nil]

theorem read?_eq_some_iff {i j : Nat} :
    read? t = some (i, j) ↔ ∃ first last, Writes t first last ∧ i = first - 1 ∧ j = last - 1 := by
  simp only [read?, Option.bind_eq_bind, Option.bind_eq_some_iff, Numeral.read?_trim_eq_some_iff]
  constructor
  · rintro ⟨⟨a, b⟩, hcut, first, ⟨hfirst, -⟩, last, ⟨hlast, hlt⟩, h⟩
    obtain ⟨rfl, -⟩ := cut?_eq_some_iff.mp hcut
    split at h
    next => cases h
    next hrange =>
      obtain ⟨rfl, rfl⟩ := Prod.mk.inj (Option.some.inj h)
      simp only [Bool.or_eq_true, decide_eq_true_eq, not_or, Nat.not_lt] at hrange
      exact ⟨first, last, ⟨⟨a, b, rfl, hfirst, hlast⟩, Nat.pos_of_ne_zero hrange.1, hrange.2, hlt⟩, rfl, rfl⟩
  · rintro ⟨first, last, ⟨⟨a, b, rfl, hfirst, hlast⟩, hpos, hle, hlt⟩, rfl, rfl⟩
    refine ⟨(a, b), cut?_eq_some_iff.mpr ⟨rfl, hfirst.not_mem_colon⟩, first, ⟨hfirst, Nat.lt_of_le_of_lt hle hlt⟩, last,
      ⟨hlast, hlt⟩, ?_⟩
    rw [if_neg]
    simp only [Bool.or_eq_true, decide_eq_true_eq, not_or, Nat.not_lt]
    exact ⟨Nat.ne_of_gt hpos, hle⟩

theorem writes_print (hpos : 1 ≤ first) (hle : first ≤ last) (hlt : last < wordBound) :
    Writes (print first last) first last :=
  ⟨⟨_, _, rfl, (Numeral.spells_toDigits first).padded, (Numeral.spells_toDigits last).padded⟩, hpos, hle, hlt⟩

end LineRange

namespace WrapRequest

open LineRange

variable {r : WrapRequest}

theorem scope_of_read? {i j : Nat} (h : read? t = some (i, j)) :
    { r with lines := some t }.scope = .ok (.lines i j) := by
  simp only [scope, h]

theorem scope_of_read?_none (h : read? t = none) :
    { r with lines := some t }.scope = .error (.range none (.malformed t)) := by
  simp only [scope, h]

theorem scope_eq_ok_iff {x : Scope} : { r with lines := some t }.scope = .ok x ↔
    ∃ first last, Writes t first last ∧ x = .lines (first - 1) (last - 1) := by
  constructor
  · intro h
    cases hread : read? t with
    | none => cases h.symm.trans (scope_of_read?_none hread)
    | some range =>
      obtain ⟨first, last, hwrites, hfirst, hlast⟩ := read?_eq_some_iff.mp hread
      refine ⟨first, last, hwrites, ?_⟩
      rw [← hfirst, ← hlast]
      exact Except.ok.inj (h.symm.trans (scope_of_read? hread))
  · rintro ⟨first, last, hwrites, rfl⟩
    exact scope_of_read? (read?_eq_some_iff.mpr ⟨first, last, hwrites, rfl, rfl⟩)

/-- Of a request for some lines exactly the written ranges are accepted, each for its lines counted from zero, and any
other text is malformed.  So what is accepted is never reversed, and every range is accepted as it is printed. -/
theorem scope_of_lines (r : WrapRequest) :
    (∀ t scope, { r with lines := some t }.scope = .ok scope ↔
      ∃ first last, Writes t first last ∧ scope = .lines (first - 1) (last - 1)) ∧
    (∀ t, (¬∃ first last, Writes t first last) →
      { r with lines := some t }.scope = .error (.range none (.malformed t))) ∧
    (∀ t i j, { r with lines := some t }.scope = .ok (.lines i j) → i ≤ j) ∧
    ∀ first last, 1 ≤ first → first ≤ last → last < wordBound →
      { r with lines := some (print first last) }.scope = .ok (.lines (first - 1) (last - 1)) := by
  refine ⟨fun t x => scope_eq_ok_iff, fun t h => ?_, fun t i j h => ?_, fun first last hpos hle hlt => ?_⟩
  · refine scope_of_read?_none (Option.eq_none_iff_forall_ne_some.mpr fun range hread => h ?_)
    obtain ⟨first, last, hwrites, -⟩ := read?_eq_some_iff.mp hread
    exact ⟨first, last, hwrites⟩
  · obtain ⟨first, last, hwrites, hlines⟩ := scope_eq_ok_iff.mp h
    obtain ⟨rfl, rfl⟩ := Scope.lines.inj hlines
    exact Nat.sub_le_sub_right hwrites.le 1
  · exact scope_eq_ok_iff.mpr ⟨first, last, writes_print hpos hle hlt, rfl⟩

/-- A written range, one that is reversed, and all lines there can be. -/
theorem scope_of_lines_spaced :
    let r : WrapRequest := { check := true }
    let t := "\u00a0+3 :\t007 ".toList
    let reversed := "5:2".toList
    let top := wordBound - 1
    Writes t 3 7 ∧ { r with lines := some t }.scope = .ok (.lines 2 6) ∧ 2 ≤ 6 ∧
    (¬∃ first last, Writes reversed first last) ∧
    { r with lines := some reversed }.scope = .error (.range none (.malformed reversed)) ∧
    1 ≤ top ∧ top < wordBound ∧ { r with lines := some (print 1 top) }.scope = .ok (.lines 0 (top - 1)) := by
  intro r t reversed top
  obtain ⟨haccepted, hrefused, hforward, hprinted⟩ := scope_of_lines r
  have hwrites : Writes t 3 7 := by
    have hfirst : Numeral.Spells "+3".toList 3 :=
      ⟨['+'], ['3'], rfl, .inr rfl, by decide, List.all_eq_true.mp rfl, rfl⟩
    have hlast : Numeral.Spells "007".toList 7 :=
      ⟨[], "007".toList, rfl, .inl rfl, by decide, List.all_eq_true.mp rfl, rfl⟩
    exact ⟨⟨"\u00a0+3 ".toList, "\t007 ".toList, rfl, ⟨['\u00a0'], _, [' '], rfl, rfl, hfirst, rfl⟩,
      ⟨['\t'], _, [' '], rfl, rfl, hlast, rfl⟩⟩, by decide, by decide, by decide⟩
  have hscope := (haccepted t (.lines 2 6)).mpr ⟨3, 7, hwrites, rfl⟩
  have hreversed : ¬∃ first last, Writes reversed first last := by
    rintro ⟨first, last, hwrites⟩
    have hread : read? reversed = none := by decide
    cases hread.symm.trans (read?_eq_some_iff.mpr ⟨first, last, hwrites, rfl, rfl⟩)
  have htop : 1 ≤ top ∧ top < wordBound := by decide
  exact ⟨hwrites, hscope, hforward t 2 6 hscope, hreversed, hrefused reversed hreversed, htop.1, htop.2,
    hprinted 1 top (Nat.le_refl 1) htop.1 htop.2⟩

end WrapRequest

end Reflow
