import Reflow.Proofs.Pattern.Search
import Reflow.Proofs.Text.Split

/-!
# Sections of a text

Of all the matches in a text the empty ones part nothing.  Without them the text falls into its
`Pattern.sections`: the matches that hold something, and the text between them, within which nothing
fits but the empty stretch (`Pattern.sectioned_sections`).  There is only one way to cut a text like
that (`Pattern.Sectioned.unique`), so the sections of a text can be told without a search.
-/

namespace Reflow.Pattern

variable {p : Pattern} {fresh : Bool} {before : Option Char} {t gap later last pending : Text} {cuts : List Cut}

/-! ## Text without matches -/

/-- At no place in a text, after which `later` comes, does anything but the empty stretch fit. -/
def Barren (p : Pattern) (before : Option Char) (gap later : Text) : Prop :=
  ∀ a c b m rest, gap = a ++ c :: b → c :: (b ++ later) = m ++ rest →
    Fits p (a.getLast?.or before) m rest.head? → m = []

theorem Unmatched.barren (h : Unmatched p fresh before gap later) : Barren p before gap later :=
  fun a c b m rest hgap hsplit hfits => (h a c b m rest hgap hsplit hfits).2.2

theorem barren_nil : Barren p before [] later := by
  intro a c b m rest hgap
  cases a <;> cases hgap

theorem Barren.append {gap' : Text} (h : Barren p before gap (gap' ++ later))
    (h' : Barren p (gap.getLast?.or before) gap' later) : Barren p before (gap ++ gap') later := by
  intro a c b m rest hgap hsplit hfits
  rcases append_eq_append_cons hgap with ⟨e, rfl, rfl⟩ | ⟨e, rfl, rfl⟩
  · apply h' e c b m rest rfl hsplit
    rwa [List.getLast?_append, Option.or_assoc] at hfits
  · apply h a c e m rest rfl _ hfits
    rw [← hsplit, List.append_assoc]

/-! ## What a search leaves behind -/

/-- Each match is the longest one at its place, and nothing fits between the matches. -/
def Tracked (p : Pattern) : Option Char → List Cut → Text → Prop
  | before, [], last => Barren p before last []
  | before, cut :: cuts, last =>
    Barren p before cut.gap (cut.hit ++ uncut cuts last) ∧
    LongestAt p (cut.gap.getLast?.or before) (cut.hit ++ uncut cuts last) cut.hit (uncut cuts last) ∧
    Tracked p ((cut.gap ++ cut.hit).getLast?.or before) cuts last

theorem tracked_cutsFrom (hp : p.Longest) (fresh : Bool) (before : Option Char) (t : Text) :
    Tracked p before (p.cutsFrom fresh before t).1 (p.cutsFrom fresh before t).2 := by
  induction fresh, before, t using cutsFrom.induct p with
  | case1 fresh before t h =>
    rw [cutsFrom_eq_of_none h]
    exact (unmatched_of_find?_eq_none hp h).barren
  | case2 fresh before t m h ih =>
    have hfound := found_of_find? hp h
    rw [cutsFrom_eq_of_some h]
    refine ⟨?_, ?_, ih⟩
    · rw [uncut_cutsFrom]
      exact hfound.unmatched.barren
    · rw [uncut_cutsFrom]
      exact hfound.longest

theorem tracked_cuts (hp : p.Longest) (t : Text) : Tracked p none (p.cuts t).1 (p.cuts t).2 :=
  tracked_cutsFrom hp false none t

theorem Tracked.exists_fits (pre : Text) (h : Tracked p pre.getLast? cuts last) :
    ∀ cut ∈ cuts, ∃ x y, pre ++ uncut cuts last = x ++ (cut.hit ++ y) ∧ Fits p x.getLast? cut.hit y.head? := by
  induction cuts generalizing pre with
  | nil => exact fun cut hcut => absurd hcut List.not_mem_nil
  | cons cut cuts ih =>
    obtain ⟨-, hlongest, hlater⟩ := h
    rw [← List.getLast?_append] at hlongest hlater
    rw [List.forall_mem_cons]
    constructor
    · exact ⟨pre ++ cut.gap, uncut cuts last, by rw [uncut, List.append_assoc], hlongest.fits⟩
    · intro cut' hcut'
      obtain ⟨x, y, heq, hfits⟩ := ih (pre ++ (cut.gap ++ cut.hit)) hlater cut' hcut'
      refine ⟨x, y, ?_, hfits⟩
      rw [← heq, uncut, List.append_assoc, List.append_assoc]

/-! ## Sections -/

/-- The cuts at the matches that hold something; the other ones are no cuts.  `pending` is the text
since the last cut. -/
def merge (pending : Text) : List Cut → Text → List Cut × Text
  | [], last => ([], pending ++ last)
  | cut :: cuts, last =>
    if cut.hit.isEmpty then merge (pending ++ cut.gap) cuts last
    else
      let later := merge [] cuts last
      (⟨pending ++ cut.gap, cut.hit⟩ :: later.1, later.2)

/-- The matches in a text that hold something, and the text after the last of them. -/
def sections (p : Pattern) (t : Text) : List Cut × Text :=
  merge [] (p.cuts t).1 (p.cuts t).2

theorem merge_cons_nil {cut : Cut} (h : cut.hit = []) :
    merge pending (cut :: cuts) last = merge (pending ++ cut.gap) cuts last := by
  rw [merge, if_pos (List.isEmpty_iff.mpr h)]

theorem merge_cons {cut : Cut} (h : cut.hit ≠ []) :
    merge pending (cut :: cuts) last =
      (⟨pending ++ cut.gap, cut.hit⟩ :: (merge [] cuts last).1, (merge [] cuts last).2) := by
  rw [merge, if_neg (by simpa using h)]

theorem uncut_merge (pending : Text) (cuts : List Cut) (last : Text) :
    uncut (merge pending cuts last).1 (merge pending cuts last).2 = pending ++ uncut cuts last := by
  induction cuts generalizing pending with
  | nil => rfl
  | cons cut cuts ih =>
    by_cases hhit : cut.hit = []
    · rw [merge_cons_nil hhit, ih, uncut, hhit, List.append_assoc, List.nil_append]
    · rw [merge_cons hhit]
      show (pending ++ cut.gap) ++ (cut.hit ++ uncut (merge [] cuts last).1 (merge [] cuts last).2) = _
      rw [ih, List.nil_append, List.append_assoc]
      rfl

/-- The cuts of a text into sections, as they can be told without a search. -/
structure Sectioned (p : Pattern) (before : Option Char) (cuts : List Cut) (last : Text) : Prop where
  tracked : Tracked p before cuts last
  ne_nil : ∀ cut ∈ cuts, cut.hit ≠ []

theorem Tracked.merge (h : Tracked p (pending.getLast?.or before) cuts last)
    (hpending : Barren p before pending (uncut cuts last)) :
    Sectioned p before (Pattern.merge pending cuts last).1 (Pattern.merge pending cuts last).2 := by
  induction cuts generalizing pending before with
  | nil =>
    refine ⟨?_, fun cut hcut => absurd hcut List.not_mem_nil⟩
    show Barren p before (pending ++ last) []
    apply Barren.append _ h
    rw [List.append_nil]
    exact hpending
  | cons cut cuts ih =>
    obtain ⟨hgap, hlongest, hlater⟩ := h
    have hwhole : Barren p before (pending ++ cut.gap) (cut.hit ++ uncut cuts last) := hpending.append hgap
    rw [← Option.or_assoc, ← List.getLast?_append, ← List.append_assoc] at hlater
    rw [← Option.or_assoc, ← List.getLast?_append] at hlongest
    by_cases hhit : cut.hit = []
    · rw [merge_cons_nil hhit]
      rw [hhit, List.append_nil] at hlater
      rw [hhit, List.nil_append] at hwhole
      exact ih hlater hwhole
    · have hlater' : Tracked p (([] : Text).getLast?.or _) cuts last := hlater
      obtain ⟨htracked, hne⟩ := ih hlater' barren_nil
      have huncut : uncut (Pattern.merge [] cuts last).1 (Pattern.merge [] cuts last).2 = uncut cuts last := by
        rw [uncut_merge, List.nil_append]
      rw [merge_cons hhit]
      refine ⟨⟨?_, ?_, htracked⟩, List.forall_mem_cons.mpr ⟨hhit, hne⟩⟩
      · rw [huncut]
        exact hwhole
      · rw [huncut]
        exact hlongest

theorem sectioned_sections (hp : p.Longest) (t : Text) : Sectioned p none (p.sections t).1 (p.sections t).2 :=
  (tracked_cuts hp t).merge barren_nil

theorem uncut_sections (p : Pattern) (t : Text) : uncut (p.sections t).1 (p.sections t).2 = t := by
  rw [sections, uncut_merge, List.nil_append, uncut_cuts]

theorem merge_eq_self (h : ∀ cut ∈ cuts, cut.hit ≠ []) : merge [] cuts last = (cuts, last) := by
  induction cuts with
  | nil => rfl
  | cons cut cuts ih =>
    rw [List.forall_mem_cons] at h
    rw [merge_cons h.1, ih h.2, List.nil_append]

/-- Where only matches that hold something fit, they are all of the matches. -/
theorem sections_eq_cuts (hp : p.Longest) (h : ∀ before after, ¬Fits p before [] after) (t : Text) :
    p.sections t = p.cuts t := by
  apply merge_eq_self
  intro cut hcut hnil
  obtain ⟨x, y, -, hfits⟩ := (tracked_cuts hp t).exists_fits [] cut hcut
  rw [hnil] at hfits
  exact h _ _ hfits

/-! ## There is one way only -/

theorem Barren.absurd {hit rest d : Text} {c : Char} (h : Barren p before (t ++ c :: d) later)
    (hsplit : c :: (d ++ later) = hit ++ rest) (hfits : Fits p (t.getLast?.or before) hit rest.head?)
    (hne : hit ≠ []) : False :=
  hne (h t c d hit rest rfl hsplit hfits)

theorem Sectioned.length_gap_le {cut cut' : Cut} {cuts' : List Cut} {last' : Text}
    (h : Sectioned p before (cut :: cuts) last) (h' : Sectioned p before (cut' :: cuts') last')
    (heq : uncut (cut :: cuts) last = uncut (cut' :: cuts') last') : cut.gap.length ≤ cut'.gap.length := by
  by_contra hlt
  rw [Nat.not_le] at hlt
  obtain ⟨c, d, hgap, hrest⟩ := exists_cons_of_shorter heq hlt
  have hbarren := h.tracked.1
  rw [hgap] at hbarren
  exact hbarren.absurd hrest.symm h'.tracked.2.1.fits (h'.ne_nil _ List.mem_cons_self)

theorem Sectioned.not_barren {cut : Cut} (h : Sectioned p before (cut :: cuts) last)
    (h' : Barren p before (uncut (cut :: cuts) last) []) : False := by
  obtain ⟨c, hit, hhit⟩ := List.exists_cons_of_ne_nil (h.ne_nil cut List.mem_cons_self)
  have hfits := h.tracked.2.1.fits
  rw [uncut, hhit, List.cons_append] at h'
  rw [hhit] at hfits
  refine h'.absurd ?_ hfits (List.cons_ne_nil c hit)
  rw [List.append_nil, List.cons_append]

theorem Sectioned.unique {cuts' : List Cut} {last' : Text} (h : Sectioned p before cuts last)
    (h' : Sectioned p before cuts' last') (heq : uncut cuts last = uncut cuts' last') :
    cuts = cuts' ∧ last = last' := by
  induction cuts generalizing before cuts' with
  | nil =>
    cases cuts' with
    | nil => exact ⟨rfl, heq⟩
    | cons cut' cuts' =>
      have hbarren := h.tracked
      rw [show last = _ from heq] at hbarren
      exact (h'.not_barren hbarren).elim
  | cons cut cuts ih =>
    cases cuts' with
    | nil =>
      have hbarren := h'.tracked
      rw [show last' = _ from heq.symm] at hbarren
      exact (h.not_barren hbarren).elim
    | cons cut' cuts' =>
      have hle := h.length_gap_le h' heq
      have hge := h'.length_gap_le h heq.symm
      obtain ⟨hgap, htail⟩ := List.append_inj heq (Nat.le_antisymm hle hge)
      obtain ⟨-, hlongest, hlater⟩ := h.tracked
      obtain ⟨-, hlongest', hlater'⟩ := h'.tracked
      have hhit : cut.hit.length = cut'.hit.length := by
        apply Nat.le_antisymm
        · exact hlongest'.le _ _ htail.symm (hgap ▸ hlongest.fits)
        · exact hlongest.le _ _ htail (hgap ▸ hlongest'.fits)
      obtain ⟨hhit, htail⟩ := List.append_inj htail hhit
      have hcut : cut = cut' := by
        cases cut
        cases cut'
        simp only [Cut.mk.injEq]
        exact ⟨hgap, hhit⟩
      subst hcut
      obtain ⟨hcuts, hlast⟩ := ih ⟨hlater, (List.forall_mem_cons.mp h.ne_nil).2⟩
        ⟨hlater', (List.forall_mem_cons.mp h'.ne_nil).2⟩ (List.append_cancel_left htail)
      rw [hcuts]
      exact ⟨rfl, hlast⟩

theorem sections_of_barren (hp : p.Longest) (h : Barren p none t []) : p.sections t = ([], t) := by
  have hnone : Sectioned p none [] t := ⟨h, fun cut hcut => absurd hcut List.not_mem_nil⟩
  obtain ⟨hcuts, hlast⟩ := (sectioned_sections hp t).unique hnone (uncut_sections p t)
  exact Prod.ext hcuts hlast

/-! ## Other characters -/

/-- The cut of the text with other characters in place of its own. -/
def Cut.map (f : Char → Char) (cut : Cut) : Cut :=
  ⟨cut.gap.map f, cut.hit.map f⟩

/-- A pattern that takes no notice of a change of characters: it fits in the text where it fits in the
other one. -/
def FitsAlike (p : Pattern) (f : Char → Char) (t : Text) : Prop :=
  ∀ x m y, t = x ++ (m ++ y) → m ≠ [] →
    (Fits p x.getLast? m y.head? ↔ Fits p (x.map f).getLast? (m.map f) (y.map f).head?)

variable {f : Char → Char} {pre : Text}

theorem uncut_map (f : Char → Char) (cuts : List Cut) (last : Text) :
    uncut (cuts.map (Cut.map f)) (last.map f) = (uncut cuts last).map f := by
  induction cuts with
  | nil => rfl
  | cons cut cuts ih =>
    rw [List.map_cons, uncut, ih, uncut, List.map_append, List.map_append]
    rfl

theorem Barren.map (h : Barren p pre.getLast? gap later) (halike : FitsAlike p f (pre ++ (gap ++ later))) :
    Barren p (pre.map f).getLast? (gap.map f) (later.map f) := by
  intro a' c' b' m' rest' hgap hsplit hfits
  by_contra hne
  obtain ⟨a, q, rfl, rfl, hq⟩ := List.map_eq_append_iff.mp hgap
  obtain ⟨c, b, rfl, rfl, rfl⟩ := List.map_eq_cons_iff.mp hq
  rw [← List.map_append, ← List.map_cons] at hsplit
  obtain ⟨m, rest, hmrest, rfl, rfl⟩ := List.map_eq_append_iff.mp hsplit
  rw [← List.getLast?_append, ← List.map_append] at hfits
  have hm : m ≠ [] := fun hm => hne (by rw [hm]; rfl)
  have hwhole : pre ++ (a ++ c :: b ++ later) = (pre ++ a) ++ (m ++ rest) := by
    rw [← hmrest]
    simp
  have hback := (halike (pre ++ a) m rest hwhole hm).mpr hfits
  rw [List.getLast?_append] at hback
  exact hm (h a c b m rest rfl hmrest hback)

theorem LongestAt.map {hit rest : Text} (h : LongestAt p pre.getLast? t hit rest) (hne : hit ≠ [])
    (halike : FitsAlike p f (pre ++ t)) :
    LongestAt p (pre.map f).getLast? (t.map f) (hit.map f) (rest.map f) := by
  refine ⟨by rw [h.split, List.map_append], (halike pre hit rest (by rw [h.split]) hne).mp h.fits, ?_⟩
  intro n' rest' hsplit hfits
  obtain ⟨n, rest'', rfl, rfl, rfl⟩ := List.map_eq_append_iff.mp hsplit
  by_cases hn : n = []
  · rw [hn]
    exact Nat.zero_le _
  · rw [List.length_map, List.length_map]
    exact h.le n rest'' rfl ((halike pre n rest'' rfl hn).mpr hfits)

/-- Where the pattern fits alike, the sections of the other text are the sections of the text. -/
theorem Sectioned.map (pre : Text) (h : Sectioned p pre.getLast? cuts last) (halike : FitsAlike p f (pre ++ uncut cuts last)) :
    Sectioned p (pre.map f).getLast? (cuts.map (Cut.map f)) (last.map f) := by
  induction cuts generalizing pre with
  | nil =>
    have hlast : Barren p pre.getLast? last [] := h.tracked
    refine ⟨hlast.map ?_, fun cut hcut => absurd hcut List.not_mem_nil⟩
    rwa [List.append_nil]
  | cons cut cuts ih =>
    obtain ⟨⟨hgap, hlongest, hlater⟩, hne⟩ := h
    rw [List.forall_mem_cons] at hne
    rw [uncut] at halike
    rw [← List.getLast?_append] at hlongest hlater
    have halike' : FitsAlike p f (pre ++ cut.gap ++ (cut.hit ++ uncut cuts last)) := by
      rwa [List.append_assoc]
    have halike'' : FitsAlike p f (pre ++ (cut.gap ++ cut.hit) ++ uncut cuts last) := by
      simpa using halike
    obtain ⟨htracked, hne'⟩ := ih (pre ++ (cut.gap ++ cut.hit)) ⟨hlater, hne.2⟩ halike''
    refine ⟨⟨?_, ?_, ?_⟩, List.forall_mem_cons.mpr ⟨?_, hne'⟩⟩
    · rw [uncut_map, Cut.map, ← List.map_append]
      exact hgap.map halike
    · rw [uncut_map, Cut.map, ← List.map_append, ← List.getLast?_append, ← List.map_append]
      exact hlongest.map hne.1 halike'
    · rw [Cut.map, ← List.map_append, ← List.getLast?_append, ← List.map_append]
      exact htracked
    · rw [Cut.map]
      exact fun hnil => hne.1 (List.map_eq_nil_iff.mp hnil)

theorem sections_map (hp : p.Longest) (halike : FitsAlike p f t) :
    p.sections (t.map f) = ((p.sections t).1.map (Cut.map f), (p.sections t).2.map f) := by
  have hcut := uncut_sections p t
  have hmapped := Sectioned.map [] (sectioned_sections hp t) (f := f) (by rwa [List.nil_append, hcut])
  obtain ⟨hcuts, hlast⟩ := (sectioned_sections hp (t.map f)).unique hmapped <| by
    rw [uncut_sections, uncut_map, hcut]
  rw [← hcuts, ← hlast]

end Reflow.Pattern
