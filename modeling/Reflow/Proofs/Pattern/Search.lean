import Reflow.Proofs.Pattern.Longest

/-!
# Where a search finds a match

The first match of a `Longest` pattern stands at the first place where some stretch fits, and it is
the longest stretch that fits there (`Pattern.find?_eq_some_iff`); a search that fails leaves no such
place (`Pattern.unmatched_of_find?_eq_none`).
-/

namespace Reflow.Pattern

variable {p : Pattern} {fresh : Bool} {before : Option Char} {t gap hit rest : Text}

theorem getLast?_cons_or (c : Char) (a : Text) (before : Option Char) :
    (c :: a).getLast?.or before = a.getLast?.or (some c) := by
  rw [List.getLast?_cons]
  cases a.getLast? <;> rfl

/-- No stretch fits anywhere in `gap`, where `later` is what follows it.  If the search is `fresh`,
the empty stretch at its start does not count. -/
def Unmatched (p : Pattern) (fresh : Bool) (before : Option Char) (gap later : Text) : Prop :=
  ∀ a c b m rest, gap = a ++ c :: b → c :: (b ++ later) = m ++ rest →
    Fits p (a.getLast?.or before) m rest.head? → fresh = true ∧ a = [] ∧ m = []

theorem unmatched_nil (later : Text) : Unmatched p fresh before [] later := by
  intro a c b m rest h
  simp at h

theorem unmatched_cons_iff {c : Char} {later : Text} :
    Unmatched p fresh before (c :: gap) later ↔
      (∀ m rest, c :: (gap ++ later) = m ++ rest → Fits p before m rest.head? → fresh = true ∧ m = []) ∧
        Unmatched p false (some c) gap later := by
  constructor
  · intro h
    refine ⟨fun m rest hsplit hm => ?_, fun a d b m rest hgap hsplit hm => ?_⟩
    · obtain ⟨hfresh, -, hempty⟩ := h [] c gap m rest rfl hsplit hm
      exact ⟨hfresh, hempty⟩
    · have := h (c :: a) d b m rest (by rw [hgap, List.cons_append]) hsplit
        (by rwa [getLast?_cons_or])
      simp at this
  · rintro ⟨hhere, hlater⟩ a d b m rest hgap hsplit hm
    cases a with
    | nil =>
      obtain ⟨rfl, rfl⟩ := List.cons.inj hgap
      obtain ⟨hfresh, hempty⟩ := hhere m rest hsplit hm
      exact ⟨hfresh, rfl, hempty⟩
    | cons e a =>
      obtain ⟨rfl, rfl⟩ := List.cons.inj hgap
      rw [getLast?_cons_or] at hm
      simpa using hlater a d b m rest rfl hsplit hm

theorem filter_length?_eq_none (hp : p.Longest)
    (h : ∀ m rest, t = m ++ rest → Fits p before m rest.head? → fresh = true ∧ m = []) :
    ((p.length? before t).filter fun n => !(fresh && n = 0)) = none := by
  cases hn : p.length? before t with
  | none => rfl
  | some n =>
    obtain ⟨m, rest, hm, rfl⟩ := (length?_eq_some_iff hp).mp hn
    obtain ⟨hfresh, rfl⟩ := h m rest hm.split hm.fits
    simp [hfresh]

theorem filter_length?_eq_some (hp : p.Longest) (h : LongestAt p before t hit rest)
    (hfresh : fresh = true → hit ≠ []) :
    ((p.length? before t).filter fun n => !(fresh && n = 0)) = some hit.length := by
  rw [h.length?_eq hp, Option.filter_some, if_pos]
  cases fresh with
  | false => simp
  | true => simpa using hfresh rfl

theorem fits_here_of_filter_eq_none (hp : p.Longest)
    (hnone : ((p.length? before t).filter fun n => !(fresh && n = 0)) = none) {m rest : Text}
    (hm : t = m ++ rest) (hfits : Fits p before m rest.head?) : fresh = true ∧ m = [] := by
  cases hn : p.length? before t with
  | none => exact absurd hfits (length?_eq_none_iff.mp hn m rest hm)
  | some n =>
    have hzero := Option.filter_eq_none_iff.mp hnone n hn
    simp only [Bool.not_eq_true', Bool.not_eq_false, Bool.and_eq_true, decide_eq_true_eq] at hzero
    obtain ⟨m', rest', hm', rfl⟩ := (length?_eq_some_iff hp).mp hn
    have := hm'.le m rest hm hfits
    exact ⟨hzero.1, List.eq_nil_of_length_eq_zero (by omega)⟩

/-- A search finds the first stretch that fits and, of those at its place, the longest. -/
structure Found (p : Pattern) (fresh : Bool) (before : Option Char) (t : Text) (m : Match) : Prop where
  split : t = m.gap ++ (m.hit ++ m.rest)
  longest : LongestAt p (m.gap.getLast?.or before) (m.hit ++ m.rest) m.hit m.rest
  /-- A match right at the start of a fresh search is not empty. -/
  proper : fresh = true → m.gap = [] → m.hit ≠ []
  /-- There is no match before it. -/
  unmatched : Unmatched p fresh before m.gap (m.hit ++ m.rest)

theorem Found.find?_eq (hp : p.Longest) {m : Match} (h : Found p fresh before t m) :
    p.find? fresh before t = some m := by
  obtain ⟨gap, hit, rest⟩ := m
  obtain ⟨rfl, hlongest, hproper, hgap⟩ := h
  simp only at hlongest hproper hgap ⊢
  induction gap generalizing fresh before with
  | nil =>
    simp only [List.getLast?_nil, Option.none_or, List.nil_append] at hlongest ⊢
    have hsome := filter_length?_eq_some hp hlongest fun hf => hproper hf rfl
    cases ht : hit ++ rest with
    | nil =>
      obtain ⟨rfl, rfl⟩ := List.append_eq_nil_iff.mp ht
      have hf : fresh = false := by
        cases fresh with
        | false => rfl
        | true => exact absurd rfl (hproper rfl rfl)
      simp only [List.append_nil] at hlongest
      simp [find?, hf, hlongest.length?_eq hp]
    | cons c t =>
      rw [ht] at hsome
      rw [find?, hsome, ← ht]
      simp
  | cons c gap ih =>
    rw [unmatched_cons_iff] at hgap
    rw [getLast?_cons_or] at hlongest
    rw [List.cons_append, find?, filter_length?_eq_none hp hgap.1,
      ih hlongest (fun hf => by simp at hf) hgap.2]
    rfl

theorem found_of_find? (hp : p.Longest) {m : Match} (h : p.find? fresh before t = some m) :
    Found p fresh before t m := by
  induction t generalizing fresh before m with
  | nil =>
    unfold find? at h
    split at h
    · rename_i hcond
      simp only [Bool.and_eq_true, Bool.not_eq_true', Option.isSome_iff_exists] at hcond
      obtain ⟨hf, n, hn⟩ := hcond
      obtain ⟨m', rest', hm', -⟩ := (length?_eq_some_iff hp).mp hn
      obtain ⟨rfl, rfl⟩ := List.append_eq_nil_iff.mp hm'.split.symm
      simp only [Option.some.injEq] at h
      subst h
      exact ⟨rfl, by simpa using hm', fun hf' => by simp [hf] at hf', unmatched_nil _⟩
    · simp at h
  | cons c t ih =>
    unfold find? at h
    split at h
    · rename_i n hn
      obtain ⟨hn, hcond⟩ := Option.filter_eq_some_iff.mp hn
      obtain ⟨m', rest', hm', rfl⟩ := (length?_eq_some_iff hp).mp hn
      simp only [Option.some.injEq] at h
      subst h
      have htake : (c :: t).take m'.length = m' := by rw [hm'.split, List.take_left]
      have hdrop : (c :: t).drop m'.length = rest' := by rw [hm'.split, List.drop_left]
      refine ⟨by simp, ?_, fun hf _ hempty => ?_, unmatched_nil _⟩
      · simpa only [htake, hdrop, List.getLast?_nil, Option.none_or, ← hm'.split] using hm'
      · simp only [htake] at hempty
        simp [hf, hempty] at hcond
    · rename_i hnone
      obtain ⟨m', h', rfl⟩ := Option.map_eq_some_iff.mp h
      obtain ⟨hsplit, hlongest, hproper, hgap⟩ := ih h'
      refine ⟨by simp [← hsplit], by rwa [getLast?_cons_or], by simp, ?_⟩
      simp only
      rw [unmatched_cons_iff]
      refine ⟨fun m rest hm hfits => ?_, hgap⟩
      rw [← hsplit] at hm
      exact fits_here_of_filter_eq_none hp hnone hm hfits

theorem find?_eq_some_iff (hp : p.Longest) {m : Match} :
    p.find? fresh before t = some m ↔ Found p fresh before t m :=
  ⟨found_of_find? hp, Found.find?_eq hp⟩

theorem unmatched_of_find?_eq_none (hp : p.Longest) (h : p.find? fresh before t = none) :
    Unmatched p fresh before t [] := by
  induction t generalizing fresh before with
  | nil => exact unmatched_nil _
  | cons c t ih =>
    unfold find? at h
    split at h
    · simp at h
    · rename_i hnone
      rw [Option.map_eq_none_iff] at h
      rw [unmatched_cons_iff]
      refine ⟨fun m rest hm hfits => ?_, ih h⟩
      rw [List.append_nil] at hm
      exact fits_here_of_filter_eq_none hp hnone hm hfits

/-! ## All matches -/

theorem cutsFrom_eq_of_none (h : p.find? fresh before t = none) :
    p.cutsFrom fresh before t = ([], t) := by
  rw [cutsFrom]
  split
  · rfl
  · rename_i m hm
    rw [h] at hm
    cases hm

theorem cutsFrom_eq_of_some {m : Match} (h : p.find? fresh before t = some m) :
    p.cutsFrom fresh before t =
      (⟨m.gap, m.hit⟩ ::
        (p.cutsFrom true ((m.gap ++ m.hit).getLast?.or before) m.rest).1,
        (p.cutsFrom true ((m.gap ++ m.hit).getLast?.or before) m.rest).2) := by
  rw [cutsFrom]
  split
  · rename_i hm
    rw [h] at hm
    cases hm
  · rename_i m' hm
    rw [h, Option.some.injEq] at hm
    subst hm
    rfl

def uncut : List Cut → Text → Text
  | [], last => last
  | cut :: cuts, last => cut.gap ++ (cut.hit ++ uncut cuts last)

theorem uncut_cutsFrom (p : Pattern) (fresh : Bool) (before : Option Char) (t : Text) :
    uncut (p.cutsFrom fresh before t).1 (p.cutsFrom fresh before t).2 = t := by
  induction fresh, before, t using cutsFrom.induct p with
  | case1 fresh before t h =>
    rw [cutsFrom_eq_of_none h]
    rfl
  | case2 fresh before t m h ih =>
    rw [cutsFrom_eq_of_some h, uncut, ih]
    rw [eq_of_find? h, List.append_assoc]

theorem uncut_cuts (p : Pattern) (t : Text) : uncut (p.cuts t).1 (p.cuts t).2 = t :=
  uncut_cutsFrom p false none t

/-- Each match fits where it stands. -/
def AllFit (p : Pattern) : Option Char → List Cut → Text → Prop
  | _, [], _ => True
  | before, cut :: cuts, last =>
    Fits p (cut.gap.getLast?.or before) cut.hit (uncut cuts last).head? ∧
      AllFit p ((cut.gap ++ cut.hit).getLast?.or before) cuts last

theorem allFit_cutsFrom (hp : p.Longest) (fresh : Bool) (before : Option Char) (t : Text) :
    AllFit p before (p.cutsFrom fresh before t).1 (p.cutsFrom fresh before t).2 := by
  induction fresh, before, t using cutsFrom.induct p with
  | case1 fresh before t h =>
    rw [cutsFrom_eq_of_none h]
    trivial
  | case2 fresh before t m h ih =>
    rw [cutsFrom_eq_of_some h]
    refine ⟨?_, ih⟩
    rw [uncut_cutsFrom]
    exact (found_of_find? hp h).longest.fits

theorem allFit_cuts (hp : p.Longest) (t : Text) : AllFit p none (p.cuts t).1 (p.cuts t).2 :=
  allFit_cutsFrom hp false none t

end Reflow.Pattern
