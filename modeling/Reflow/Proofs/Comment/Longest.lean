import Reflow.Proofs.Comment.Wordless
import Reflow.Proofs.Pattern.Longest

/-!
# The patterns of comments prefer the longest match

The preferred match of each of the three patterns that are made of a leader is the longest stretch that
fits, for any leader that is made of leader characters: `Pattern.IsLeader.longest_indent`,
`Pattern.IsLeader.longest_separator` and `Pattern.IsLeader.longest_bareLine`.  A part of these patterns
that stops short leads nowhere new, since it stops before a character with which no leader and no tag
begins.
-/

namespace Reflow

theorem LineBreak.length_eq {x x' rest rest' : Text} (hx : LineBreak x) (hx' : LineBreak x')
    (h : x ++ rest = x' ++ rest') : x.length = x'.length := by
  rcases hx with rfl | rfl <;> rcases hx' with rfl | rfl <;> simp_all

theorem BreakTag.length_eq {g g' rest rest' : Text} (hg : BreakTag g) (hg' : BreakTag g')
    (h : g ++ rest = g' ++ rest') : g.length = g'.length := by
  cases hg with
  | paragraph hp =>
    cases hg' with
    | paragraph hp' => rfl
    | line hb hr hspace hslash =>
      simp only [List.cons_append, List.cons.injEq, true_and] at h
      obtain ⟨rfl, -⟩ := h
      rcases hp with rfl | rfl <;> simp at hb
  | line hb hr hspace hslash =>
    cases hg' with
    | paragraph hp' =>
      simp only [List.cons_append, List.cons.injEq, true_and] at h
      obtain ⟨rfl, -⟩ := h
      rcases hp' with rfl | rfl <;> simp at hb
    | line hb' hr' hspace' hslash' =>
      simp only [List.cons_append, List.cons.injEq, true_and] at h
      obtain ⟨-, -, h⟩ := h
      rcases hspace with rfl | rfl <;> rcases hslash with rfl | rfl <;>
        rcases hspace' with rfl | rfl <;> rcases hslash' with rfl | rfl <;> simp_all

namespace Pattern

variable {p q r : Pattern}

/-! ## Parts that stop short -/

/-- An earlier end of `p` leads `q` nowhere beyond a later one, unless the later one does as well. -/
def StopsShort (p q : Pattern) : Prop :=
  ∀ s, ∀ t ∈ p.ends s, ∀ u ∈ p.ends s, u.offset < t.offset →
    ∀ v ∈ q.ends u, v ∈ q.ends t ∨ v.offset ≤ t.offset

theorem stopsShort_of_subsingleton (h : ∀ s, ∀ t ∈ p.ends s, ∀ u ∈ p.ends s, t = u) :
    StopsShort p q := by
  intro s t ht u hu hlt
  rw [h s t ht u hu] at hlt
  exact absurd hlt (Nat.lt_irrefl _)

/-- What an earlier end of `p` stops before is the start of what a later one goes on with. -/
theorem stopsShort_of_fits
    (h : ∀ {before m n c d rest k z}, m = n ++ c :: d → Fits p before m rest.head? →
      c :: (d ++ rest) = k ++ z → Fits q (n.getLast?.or before) k z.head? →
      (∃ k', k = c :: d ++ k' ∧ Fits q (m.getLast?.or before) k' z.head?) ∨
        k.length ≤ (c :: d).length) :
    StopsShort p q := by
  intro s t ht u hu hlt v hv
  obtain ⟨m, rest, hm, rfl, hfits⟩ := mem_ends_iff.mp ht
  obtain ⟨n, rest', hn, rfl, -⟩ := mem_ends_iff.mp hu
  obtain ⟨k, z, hk, rfl, hfits'⟩ := mem_ends_iff.mp hv
  simp only [Spot.after_offset, Nat.add_lt_add_iff_left] at hlt
  obtain ⟨c, d, rfl, rfl⟩ := exists_cons_of_shorter (hm.symm.trans hn) hlt
  simp only [Spot.after_rest, Spot.after_before] at hk hfits'
  rcases h rfl hfits hk hfits' with ⟨k', rfl, hfits''⟩ | hle
  · refine .inl (mem_ends_iff.mpr ⟨k', z, ?_, ?_, hfits''⟩)
    · simpa using hk
    · simp
  · refine .inr ?_
    simp only [Spot.after_after, Spot.after_offset, List.length_append] at hle ⊢
    omega

theorem stopsShort_look (holds : Option Char → Option Char → Bool) :
    StopsShort p (.look holds) := by
  refine stopsShort_of_fits fun _ _ _ hk => .inr ?_
  rw [(fits_look_iff.mp hk).1]
  exact Nat.zero_le _

/-- Where a line break from an earlier spot leads, it leads from a later one, unless that is beyond. -/
theorem mem_ends_lineBreak_or_le {s t u v : Spot} (ht : ∃ m rest, s.rest = m ++ rest ∧ t = s.after m rest)
    (hu : ∃ n rest, s.rest = n ++ rest ∧ u = s.after n rest) (hle : u.offset ≤ t.offset)
    (hv : v ∈ lineBreak.ends u) : v ∈ lineBreak.ends t ∨ v.offset ≤ t.offset := by
  obtain ⟨m, rest, hm, rfl⟩ := ht
  obtain ⟨n, rest', hn, rfl⟩ := hu
  obtain ⟨k, z, hk, rfl, hfits⟩ := mem_ends_iff.mp hv
  rw [fits_lineBreak_iff] at hfits
  simp only [Spot.after_offset, Spot.after_rest, Spot.after_after, Nat.add_le_add_iff_left,
    List.length_append] at hle hk ⊢
  rcases Nat.lt_or_eq_of_le hle with hlt | heq
  · obtain ⟨c, d, rfl, rfl⟩ := exists_cons_of_shorter (hm.symm.trans hn) hlt
    rcases hfits with rfl | rfl
    · refine .inr ?_
      simp only [List.length_append, List.length_cons, List.length_nil]
      omega
    · cases d with
      | nil =>
        -- the later spot is between the two characters of the break
        obtain ⟨rfl, rfl⟩ := List.cons.inj hk
        refine .inl (mem_ends_iff.mpr ⟨['\n'], z, rfl, by simp, ?_⟩)
        rw [fits_lineBreak_iff]
        exact .inl rfl
      | cons e d =>
        refine .inr ?_
        simp only [List.length_append, List.length_cons, List.length_nil]
        omega
  · obtain ⟨rfl, rfl⟩ := List.append_inj (hn.symm.trans hm) heq
    exact .inl (mem_ends_iff.mpr ⟨k, z, hk, by simp, fits_lineBreak_iff.mpr hfits⟩)

theorem exists_of_mem_ends {s t : Spot} (h : t ∈ p.ends s) :
    ∃ m rest, s.rest = m ++ rest ∧ t = s.after m rest := by
  obtain ⟨m, rest, hm, ht, -⟩ := mem_ends_iff.mp h
  exact ⟨m, rest, hm, ht⟩

theorem stopsShort_lineBreak : StopsShort p lineBreak := by
  intro s t ht u hu hlt v hv
  exact mem_ends_lineBreak_or_le (exists_of_mem_ends ht) (exists_of_mem_ends hu) (Nat.le_of_lt hlt) hv

theorem StopsShort.seq_look (h : StopsShort p q) (holds : Option Char → Option Char → Bool) :
    StopsShort p (q.seq (.look holds)) := by
  intro s t ht u hu hlt v hv
  obtain ⟨w, hw, hv⟩ := List.mem_flatMap.mp hv
  rcases h s t ht u hu hlt w hw with hmem | hle
  · exact .inl (List.mem_flatMap.mpr ⟨w, hmem, hv⟩)
  · simp only [ends] at hv
    split at hv
    · rw [List.mem_singleton.mp hv]
      exact .inr hle
    · exact absurd hv List.not_mem_nil

theorem StopsShort.seq_lineBreak (h : StopsShort p q)
    (hempty : ∀ before after, Fits q before [] after) : StopsShort p (q.seq lineBreak) := by
  intro s t ht u hu hlt v hv
  obtain ⟨w, hw, hv⟩ := List.mem_flatMap.mp hv
  rcases h s t ht u hu hlt w hw with hmem | hle
  · exact .inl (List.mem_flatMap.mpr ⟨w, hmem, hv⟩)
  · have hw' : ∃ n rest, s.rest = n ++ rest ∧ w = s.after n rest := by
      obtain ⟨n, rest, hn, rfl⟩ := exists_of_mem_ends hu
      obtain ⟨n', rest', hn', rfl⟩ := exists_of_mem_ends hw
      exact ⟨n ++ n', rest', by rw [hn, List.append_assoc, ← hn']; rfl, by simp⟩
    rcases mem_ends_lineBreak_or_le (exists_of_mem_ends ht) hw' hle hv with hmem | hle'
    · have htt : t ∈ q.ends t := mem_ends_iff.mpr ⟨[], t.rest, rfl, by simp, hempty _ _⟩
      exact .inl (List.mem_flatMap.mpr ⟨t, htt, hmem⟩)
    · exact .inr hle'

/-! ## The parts of the code patterns -/

theorem Longest.seq_of_stopsShort (hp : p.Longest) (hq : q.Longest) (h : StopsShort p q) :
    (p.seq q).Longest :=
  Longest.seq hp hq h

theorem longest_char (c : Char) : (char c).Longest := longest_one _

theorem ends_char_subsingleton {c : Char} {s : Spot} :
    ∀ t ∈ (char c).ends s, ∀ u ∈ (char c).ends s, t = u := by
  intro t ht u hu
  obtain ⟨d, -, rest, hs, rfl⟩ := Spot.mem_next?_iff.mp ht
  obtain ⟨d', -, rest', hs', rfl⟩ := Spot.mem_next?_iff.mp hu
  rw [hs] at hs'
  obtain ⟨rfl, rfl⟩ := List.cons.inj hs'
  rfl

theorem longest_char_seq (c : Char) (hq : q.Longest) : ((char c).seq q).Longest :=
  (longest_char c).seq hq (stopsShort_of_subsingleton fun _ => ends_char_subsingleton)

theorem longest_alt_of_fits (hp : p.Longest) (hq : q.Longest)
    (h : ∀ {before m n rest rest'}, m ++ rest = n ++ rest' → Fits p before m rest.head? →
      Fits q before n rest'.head? → n.length ≤ m.length) : (p.alt q).Longest := by
  refine hp.alt hq fun s t ht u hu => ?_
  obtain ⟨m, rest, hm, rfl, hfits⟩ := mem_ends_iff.mp ht
  obtain ⟨n, rest', hn, rfl, hfits'⟩ := mem_ends_iff.mp hu
  have := h (hm.symm.trans hn) hfits hfits'
  simpa using this

theorem longest_oneOrMore_char (c : Char) : (oneOrMore true (char c)).Longest :=
  longest_repeated_one _

theorem longest_literal_pair (c d : Char) : (literal [c, d]).Longest :=
  longest_char_seq c (longest_char d)

/-- No two leaders start alike, except for the end of a block comment and a star. -/
theorem longest_codeLeaders : codeLeaders.Longest := by
  refine Longest.optional ?_
  simp only [choice]
  refine longest_alt_of_fits (longest_char_seq _ (longest_oneOrMore_char _)) ?_ ?opener
  refine longest_alt_of_fits (longest_literal_pair _ _) ?_ ?closer
  refine longest_alt_of_fits (longest_char _) ?_ ?star
  refine longest_alt_of_fits (longest_char _) ?_ ?dot
  refine longest_alt_of_fits (longest_oneOrMore_char _) ?_ ?hashes
  refine longest_alt_of_fits (longest_char_seq _ (longest_oneOrMore_char _)) ?_ ?slashes
  refine longest_alt_of_fits (longest_oneOrMore_char _) (longest_literal_pair _ _) ?semicolons
  all_goals
    intro before m n rest rest' heq hm hn
    simp only [fits_alt_iff, fits_opener_iff, fits_char_iff, fits_oneOrMore_char_iff,
      fits_literal_pair_iff, List.replicate_succ] at hm hn
  case opener =>
    obtain ⟨k, rfl⟩ := hm
    rcases hn with rfl | rfl | rfl | ⟨k', rfl⟩ | ⟨k', rfl⟩ | ⟨k', rfl⟩ | rfl <;> simp at heq
  case closer =>
    subst hm
    rcases hn with rfl | rfl | ⟨k', rfl⟩ | ⟨k', rfl⟩ | ⟨k', rfl⟩ | rfl <;> simp at heq ⊢
  case star =>
    subst hm
    rcases hn with rfl | ⟨k', rfl⟩ | ⟨k', rfl⟩ | ⟨k', rfl⟩ | rfl <;> simp at heq
  case dot =>
    subst hm
    rcases hn with ⟨k', rfl⟩ | ⟨k', rfl⟩ | ⟨k', rfl⟩ | rfl <;> simp at heq
  case hashes =>
    obtain ⟨k, rfl⟩ := hm
    rcases hn with ⟨k', rfl⟩ | ⟨k', rfl⟩ | rfl <;> simp at heq
  case slashes =>
    obtain ⟨k, rfl⟩ := hm
    rcases hn with ⟨k', rfl⟩ | rfl <;> simp at heq
  case semicolons =>
    obtain ⟨k, rfl⟩ := hm
    subst hn
    simp at heq

theorem longest_tag : tag.Longest := by
  refine longest_of_subsingleton fun s t ht u hu => ?_
  obtain ⟨g, rest, hg, rfl, hfits⟩ := mem_ends_iff.mp ht
  obtain ⟨g', rest', hg', rfl, hfits'⟩ := mem_ends_iff.mp hu
  rw [fits_tag_iff] at hfits hfits'
  have heq := hg.symm.trans hg'
  obtain ⟨rfl, rfl⟩ := List.append_inj heq (hfits.length_eq hfits' heq)
  rfl

theorem longest_zeroOrMore_one (accepts : Char → Bool) : (zeroOrMore true (.one accepts)).Longest :=
  (longest_repeated_one accepts).optional

/-- A pattern of leaders, which may be missing. -/
structure IsLeader (leader : Pattern) : Prop where
  longest : leader.Longest
  nil : ∀ before after, Fits leader before [] after
  isLeaderChar : ∀ {before l after}, Fits leader before l after → ∀ c ∈ l, isLeaderChar c = true

theorem isLeader_codeLeaders : IsLeader codeLeaders where
  longest := longest_codeLeaders
  nil _ _ := fits_codeLeaders_iff.mpr (.inl rfl)
  isLeaderChar h c hc := by
    rcases fits_codeLeaders_iff.mp h with rfl | h
    · exact absurd hc List.not_mem_nil
    · exact h.isLeaderChar hc

variable {leader : Pattern}

theorem fits_marks_leader_iff {before after : Option Char} {m : Text} :
    Fits (marks leader) before m after ↔ ∃ l b g, m = l ++ (b ++ g) ∧
      Fits leader before l ((b ++ g).head?.or after) ∧ Blank b ∧ (BreakTag g ∨ g = []) := by
  simp only [marks, row, fits_seq_iff, fits_blanks_iff, fits_optional_iff, fits_tag_iff]
  constructor
  · rintro ⟨l, _, rfl, hl, b, g, rfl, hb, hg⟩
    exact ⟨l, b, g, rfl, hl, hb, hg⟩
  · rintro ⟨l, b, g, rfl, hl, hb, hg⟩
    exact ⟨l, _, rfl, hl, b, g, rfl, hb, hg⟩

namespace IsLeader

variable (h : IsLeader leader)
include h

/-- A run of characters that begin neither a leader nor a tag stops short of what follows it. -/
theorem stopsShort_zeroOrMore_marks {accepts : Char → Bool}
    (hleader : ∀ c, Reflow.isLeaderChar c = true → accepts c = false) (htag : accepts '<' = false) :
    StopsShort (zeroOrMore true (.one accepts)) (marks leader) := by
  refine stopsShort_of_fits fun {before m n c d rest k z} hm hfits hk hmarks => ?_
  rw [fits_zeroOrMore_one_iff, hm, List.all_append, Bool.and_eq_true] at hfits
  have hrun : (c :: d).all accepts = true := hfits.2
  obtain ⟨l, b, g, rfl, hl, hb, hg⟩ := fits_marks_leader_iff.mp hmarks
  -- a leader would begin with a character of the run
  have hnil : l = [] := by
    cases l with
    | nil => rfl
    | cons e l =>
      obtain ⟨rfl, -⟩ := List.cons.inj hk
      have := hleader c (h.isLeaderChar hl c List.mem_cons_self)
      simp [this] at hrun
  subst hnil
  rw [List.nil_append, List.append_assoc, ← List.cons_append] at hk
  rw [List.nil_append]
  have hbeyond : ∀ b', b = c :: d ++ b' → (∃ k', b ++ g = c :: d ++ k' ∧
      Fits (marks leader) (m.getLast?.or before) k' z.head?) ∨ (b ++ g).length ≤ (c :: d).length := by
    rintro b' rfl
    refine .inl ⟨b' ++ g, List.append_assoc .., fits_marks_leader_iff.mpr ⟨[], b', g, rfl, h.nil _ _, ?_, hg⟩⟩
    exact (blank_append.mp hb).2
  rcases List.append_eq_append_iff.mp hk with ⟨b', rfl, -⟩ | ⟨e, he, hge⟩
  · exact hbeyond b' rfl
  · cases e with
    | nil => exact hbeyond [] (by rw [he, List.append_nil, List.append_nil])
    | cons x e =>
      rcases hg with hg | rfl
      · -- a tag would begin within the run
        exfalso
        obtain ⟨g', rfl⟩ := hg.exists_cons
        obtain ⟨rfl, -⟩ := List.cons.inj hge
        rw [he] at hrun
        simp [htag] at hrun
      · -- the white space ends within the run
        refine .inr ?_
        rw [he, List.append_nil, List.length_append]
        exact Nat.le_add_right _ _

theorem stopsShort_blanks_tag : StopsShort leader (.seq blanks (optional true tag)) := by
  refine stopsShort_of_fits fun {before m n c d rest k z} hm hfits hk hfits' => .inr ?_
  have hc : Reflow.isLeaderChar c = true := h.isLeaderChar hfits c (by simp [hm])
  simp only [fits_seq_iff, fits_blanks_iff, fits_optional_iff, fits_tag_iff] at hfits'
  obtain ⟨b, g, rfl, hb, hg⟩ := hfits'
  have hb : b = [] := by
    cases b with
    | nil => rfl
    | cons e b =>
      obtain ⟨rfl, -⟩ := List.cons.inj hk
      have := not_isBlank_of_not_isFiller (not_isFiller_of_isLeaderChar hc)
      simp [this] at hb
  subst hb
  rcases hg with hg | rfl
  · obtain ⟨g', rfl⟩ := hg.exists_cons
    obtain ⟨rfl, -⟩ := List.cons.inj hk
    simp [Reflow.isLeaderChar] at hc
  · exact Nat.zero_le _

end IsLeader

theorem stopsShort_blanks_tag : StopsShort blanks (optional true tag) := by
  refine stopsShort_of_fits fun {before m n c d rest k z} hm hfits hk hfits' => .inr ?_
  rw [fits_blanks_iff, hm, blank_append, blank_cons] at hfits
  rw [fits_optional_iff, fits_tag_iff] at hfits'
  rcases hfits' with hg | rfl
  · obtain ⟨g', rfl⟩ := hg.exists_cons
    obtain ⟨rfl, -⟩ := List.cons.inj hk
    exact absurd hfits.2.1 (by decide)
  · exact Nat.zero_le _

theorem longest_look_seq (holds : Option Char → Option Char → Bool) (hq : q.Longest) :
    ((look holds).seq q).Longest := by
  refine (longest_look holds).seq_of_stopsShort hq (stopsShort_of_subsingleton fun s t ht u hu => ?_)
  simp only [ends] at ht hu
  split at ht
  · simp_all
  · exact absurd ht List.not_mem_nil

theorem longest_lineBreak : lineBreak.Longest := by
  refine longest_of_subsingleton fun s t ht u hu => ?_
  obtain ⟨x, rest, hx, rfl, hfits⟩ := mem_ends_iff.mp ht
  obtain ⟨x', rest', hx', rfl, hfits'⟩ := mem_ends_iff.mp hu
  rw [fits_lineBreak_iff] at hfits hfits'
  have heq := hx.symm.trans hx'
  obtain ⟨rfl, rfl⟩ := List.append_inj heq (hfits.length_eq hfits' heq)
  rfl

namespace IsLeader

variable (h : IsLeader leader)
include h

theorem longest_marks : (marks leader).Longest :=
  h.longest.seq_of_stopsShort
    ((longest_zeroOrMore_one _).seq_of_stopsShort longest_tag.optional Pattern.stopsShort_blanks_tag)
    h.stopsShort_blanks_tag

theorem stopsShort_filler : StopsShort filler (marks leader) :=
  h.stopsShort_zeroOrMore_marks (fun _ => not_isFiller_of_isLeaderChar) (by decide)

theorem stopsShort_blanks : StopsShort blanks (marks leader) :=
  h.stopsShort_zeroOrMore_marks
    (fun _ hc => not_isBlank_of_not_isFiller (not_isFiller_of_isLeaderChar hc)) (by decide)

theorem fits_marks_nil (before after : Option Char) : Fits (marks leader) before [] after :=
  fits_marks_leader_iff.mpr ⟨[], [], [], rfl, h.nil _ _, rfl, .inr rfl⟩

theorem longest_indent : (Markers.ofLeader leader).indent.Longest :=
  longest_look_seq _ ((longest_zeroOrMore_one _).seq_of_stopsShort h.longest_marks h.stopsShort_filler)

theorem longest_bareLine : (Markers.ofLeader leader).bareLine.Longest :=
  longest_look_seq _
    ((longest_zeroOrMore_one _).seq_of_stopsShort
      (h.longest_marks.seq_of_stopsShort (longest_look _) (stopsShort_look _))
      (h.stopsShort_filler.seq_look _))

theorem longest_separator : (Markers.ofLeader leader).separator.Longest := by
  refine longest_lineBreak.seq_of_stopsShort
    ((longest_zeroOrMore_one _).seq_of_stopsShort
      (h.longest_marks.seq_of_stopsShort longest_lineBreak stopsShort_lineBreak)
      (h.stopsShort_blanks.seq_lineBreak h.fits_marks_nil))
    (stopsShort_of_subsingleton fun s t ht u hu => ?_)
  obtain ⟨x, rest, hx, rfl, hfits⟩ := mem_ends_iff.mp ht
  obtain ⟨x', rest', hx', rfl, hfits'⟩ := mem_ends_iff.mp hu
  rw [fits_lineBreak_iff] at hfits hfits'
  have heq := hx.symm.trans hx'
  obtain ⟨rfl, rfl⟩ := List.append_inj heq (hfits.length_eq hfits' heq)
  rfl

end IsLeader

end Pattern

namespace Markers

open Pattern

theorem longest_bareLine : code.bareLine.Longest :=
  isLeader_codeLeaders.longest_bareLine

theorem longest_separator : code.separator.Longest :=
  isLeader_codeLeaders.longest_separator

end Markers

end Reflow
