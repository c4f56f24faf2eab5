import Reflow.Proofs.Comment.Line

/-!
# Line comments

Of a line with white space behind its leader the longest indent is what comes before its words, with the tag that they
start with (`Markers.longest_indent_of_leader`).  So before a word that starts no tag the prefix of a line comment is
recognized as it stands: spaces, one leader and spaces (`Markers.splitLine_linePrefix`).
-/

namespace Reflow

/-- A leader of line comments or list items, which ends no block comment. -/
inductive LineLeader : Text → Prop
  | hashes (n : Nat) : LineLeader (List.replicate (n + 1) '#')
  | slashes (n : Nat) : LineLeader (List.replicate (n + 2) '/')
  | semicolons (n : Nat) : LineLeader (List.replicate (n + 1) ';')
  | dashes : LineLeader ['-', '-']
  | star : LineLeader ['*']
  | dot : LineLeader ['.']

theorem LineLeader.leader {l : Text} (h : LineLeader l) : Leader l := by
  cases h with
  | hashes n => exact .hashes n
  | slashes n => exact .slashes n
  | semicolons n => exact .semicolons n
  | dashes => exact .dashes
  | star => exact .star
  | dot => exact .dot

/-- Any number of spaces, a leader, and at least one space. -/
def LinePrefix (p : Text) : Prop :=
  ∃ k l n, p = List.replicate k ' ' ++ (l ++ List.replicate (n + 1) ' ') ∧ LineLeader l

/-- A text can be cut in one way before its first character that is not accepted. -/
theorem append_inj_of_accepted {accepts : Char → Bool} {a a' u u' : Text} (h : a ++ u = a' ++ u')
    (ha : ∀ c ∈ a, accepts c = true) (ha' : ∀ c ∈ a', accepts c = true)
    (hu : ∀ c ∈ u.head?, accepts c = false) (hu' : ∀ c ∈ u'.head?, accepts c = false) :
    a = a' ∧ u = u' := by
  rcases List.append_eq_append_iff.mp h with ⟨e, rfl, rfl⟩ | ⟨e, rfl, rfl⟩
  · cases e with
    | nil => simp
    | cons c e =>
      have := hu c rfl
      rw [ha' c (by simp)] at this
      cases this
  · cases e with
    | nil => simp
    | cons c e =>
      have := hu' c rfl
      rw [ha c (by simp)] at this
      cases this

section

variable {l : Text}

theorem exists_cons_of_leader (h : Leader l) : ∃ c l', l = c :: l' ∧ isLeaderChar c = true := by
  obtain ⟨c, l', rfl⟩ := List.exists_cons_of_ne_nil h.ne_nil
  exact ⟨c, l', rfl, h.isLeaderChar List.mem_cons_self⟩

theorem not_isLeaderChar_of_isBlank {c : Char} (h : isBlank c = true) : isLeaderChar c = false := by
  rw [← Bool.not_eq_true]
  intro hc
  rw [not_isBlank_of_not_isFiller (not_isFiller_of_isLeaderChar hc)] at h
  cases h

/-- No indent goes on past white space behind a leader, and past a tag, into a word. -/
theorem not_indent_append_of_leader {a b g d : Text} {c : Char} (ha : a.all isFiller = true) (hl : Leader l)
    (hb : Blank b) (hne : b ≠ []) (hhead : ∀ y ∈ (g ++ c :: d).head?, isBlank y = false)
    (hg : BreakTag g ∨ g = [] ∧ ¬BreakTag (c :: d)) : ¬Indent (a ++ (l ++ (b ++ (g ++ c :: d)))) := by
  rintro ⟨a', _, heq, ha', l', b', g', rfl, hl', hb', hg'⟩
  rw [List.all_eq_true] at ha ha'
  obtain ⟨x, l₁, hx, hleader⟩ := exists_cons_of_leader hl
  have hleaderHead : ∀ y ∈ (l ++ (b ++ (g ++ c :: d))).head?, isFiller y = false := by
    rw [hx]
    rintro y ⟨⟩
    exact not_isFiller_of_isLeaderChar hleader
  have htagHead : ∀ y ∈ g'.head?, y = '<' := by
    rcases hg' with rfl | hg'
    · simp
    · obtain ⟨g₁, rfl⟩ := hg'.exists_cons
      simp
  rcases hl' with rfl | hl'
  · -- the leader would stand where a tag does
    have hfiller : ∀ y ∈ a' ++ b', isFiller y = true := fun y hy =>
      (List.mem_append.mp hy).elim (ha' y) fun hy => isFiller_of_isBlank (isBlank_of_mem hb' hy)
    rw [List.nil_append, ← List.append_assoc a'] at heq
    obtain ⟨-, hrest⟩ := append_inj_of_accepted heq ha hfiller hleaderHead fun y hy => by
      rw [htagHead y hy]
      decide
    rw [hx] at hrest
    have := htagHead x (by rw [← hrest]; rfl)
    rw [this] at hleader
    exact absurd hleader (by decide)
  · obtain ⟨x', l₁', hx', hleader'⟩ := exists_cons_of_leader hl'
    obtain ⟨-, hrest⟩ := append_inj_of_accepted heq ha ha' hleaderHead (by
      rw [hx']
      rintro y ⟨⟩
      exact not_isFiller_of_isLeaderChar hleader')
    have hblankHead : ∀ {z u : Text}, Blank z → (∀ y ∈ u.head?, isLeaderChar y = false) →
        ∀ y ∈ (z ++ u).head?, isLeaderChar y = false := by
      intro z u hz hu y hy
      cases z with
      | nil => exact hu y hy
      | cons e z =>
        obtain rfl : e = y := Option.some.inj hy
        exact not_isLeaderChar_of_isBlank (blank_cons.mp hz).1
    have hspace : ∀ y ∈ (b ++ (g ++ c :: d)).head?, isLeaderChar y = false := by
      obtain ⟨e, b₁, rfl⟩ := List.exists_cons_of_ne_nil hne
      rintro y ⟨⟩
      exact not_isLeaderChar_of_isBlank (blank_cons.mp hb).1
    obtain ⟨-, hrest⟩ := append_inj_of_accepted hrest (fun y hy => hl.isLeaderChar hy)
      (fun y hy => hl'.isLeaderChar hy) hspace (hblankHead hb' fun y hy => by
        rw [htagHead y hy]
        decide)
    obtain ⟨-, hrest⟩ := append_inj_of_accepted hrest (fun y hy => isBlank_of_mem hb hy)
      (fun y hy => isBlank_of_mem hb' hy) hhead fun y hy => by
        rw [htagHead y hy]
        decide
    -- what follows the spaces would be one tag
    rcases hg' with rfl | hg'
    · simp at hrest
    · rcases hg with hg | ⟨rfl, htag⟩
      · have hsame : g ++ c :: d = g' ++ [] := by rw [hrest, List.append_nil]
        have hlength := hg.length_eq hg' hsame
        rw [← hrest, List.length_append, List.length_cons] at hlength
        omega
      · exact htag (by rwa [← hrest] at hg')

/-- With white space behind its leader a line has an indent up to its words, with the tag that they start with. -/
theorem Markers.longest_indent_of_leader {a b g r : Text} (ha : a.all isFiller = true) (hl : Leader l) (hb : Blank b)
    (hne : b ≠ []) (hhead : ∀ y ∈ (g ++ r).head?, isBlank y = false)
    (hg : BreakTag g ∨ g = [] ∧ ∀ g', BreakTag g' → ¬g' <+: r) :
    Pattern.LongestAt code.indent none (a ++ (l ++ (b ++ (g ++ r)))) (a ++ (l ++ (b ++ g))) r := by
  refine longest_indent_iff.mpr ⟨by simp, ⟨a, _, rfl, ha, l, b, g, rfl, .inr hl, hb, (hg.imp_right And.left).symm⟩, ?_⟩
  intro n rest hn hindent
  by_contra hlt
  have hsplit : a ++ (l ++ (b ++ g)) ++ r = n ++ rest := by rw [← hn]; simp
  obtain ⟨c, d, rfl, rfl⟩ := exists_cons_of_shorter hsplit.symm (Nat.not_le.mp hlt)
  refine not_indent_append_of_leader (g := g) (c := c) (d := d) ha hl hb hne (fun y hy => hhead y ?_) ?_ ?_
  · cases g with
    | nil => exact hy
    | cons e g => exact hy
  · exact hg.imp_right fun ⟨hnil, htag⟩ => ⟨hnil, fun hcd => htag _ hcd (List.prefix_append _ _)⟩
  · simpa using hindent

theorem exists_tag_append (t : Text) :
    ∃ g r, t = g ++ r ∧ (BreakTag g ∨ g = [] ∧ ∀ g', BreakTag g' → ¬g' <+: t) := by
  by_cases h : ∃ g, BreakTag g ∧ g <+: t
  · obtain ⟨g, hg, r, rfl⟩ := h
    exact ⟨g, r, rfl, .inl hg⟩
  · exact ⟨[], t, rfl, .inr ⟨rfl, fun g hg hprefix => h ⟨g, hg, hprefix⟩⟩⟩

theorem LinePrefix.not_indent_append {p : Text} (hp : LinePrefix p) {c : Char} {d : Text}
    (hblank : isBlank c = false) (htag : c ≠ '<') : ¬Indent (p ++ c :: d) := by
  obtain ⟨k, l, n, rfl, hl⟩ := hp
  intro hindent
  refine not_indent_append_of_leader (a := List.replicate k ' ') (b := List.replicate (n + 1) ' ') (g := []) (c := c)
    (d := d) ?_ hl.leader ?_ (by simp) (by rintro y ⟨⟩; exact hblank) (.inr ⟨rfl, ?_⟩) (by simpa using hindent)
  · exact all_isFiller_of_blank (blank_replicate k)
  · exact blank_replicate (n + 1)
  · intro hcd
    obtain ⟨g, hg⟩ := hcd.exists_cons
    exact htag (List.cons.inj hg).1

theorem LinePrefix.indent {p : Text} (hp : LinePrefix p) : Indent p := by
  obtain ⟨k, l, n, rfl, hl⟩ := hp
  refine ⟨_, _, rfl, ?_, l, List.replicate (n + 1) ' ', [], by simp, .inr hl.leader, ?_, .inl rfl⟩
  · exact all_isFiller_of_blank (blank_replicate k)
  · exact blank_replicate (n + 1)

theorem LinePrefix.mem {p : Text} (hp : LinePrefix p) {c : Char} (hc : c ∈ p) :
    c = ' ' ∨ isLeaderChar c = true := by
  obtain ⟨k, l, n, rfl, hl⟩ := hp
  simp only [List.mem_append] at hc
  rcases hc with hc | hc | hc
  · exact .inl (List.eq_of_mem_replicate hc)
  · exact .inr (hl.leader.isLeaderChar hc)
  · exact .inl (List.eq_of_mem_replicate hc)

theorem LinePrefix.plain {p : Text} (hp : LinePrefix p) {c : Char} (hc : c ∈ p) :
    isBreak c = false ∧ c ≠ '\t' ∧ c ≠ tabMark := by
  rcases hp.mem hc with rfl | hleader
  · decide
  · have hfiller := not_isFiller_of_isLeaderChar hleader
    refine ⟨not_isBreak_of_not_isBlank (not_isBlank_of_not_isFiller hfiller), ?_, ?_⟩
    · rintro rfl
      exact absurd hfiller (by decide)
    · rintro rfl
      exact absurd hfiller (by decide)

theorem Markers.splitLine_linePrefix {p : Text} (hp : LinePrefix p) {c : Char} {d : Text}
    (hblank : isBlank c = false) (htag : c ≠ '<') :
    code.splitLine (p ++ c :: d) =
      ⟨p, (listSymbol? (p ++ c :: d)).getD [], Text.strip isControl (c :: d)⟩ := by
  have hlongest : Pattern.LongestAt code.indent none (p ++ c :: d) p (c :: d) := by
    refine longest_indent_iff.mpr ⟨rfl, hp.indent, fun n rest hn hindent => ?_⟩
    by_contra hlt
    rw [Nat.not_le] at hlt
    obtain ⟨c', d', rfl, hcd⟩ := exists_cons_of_shorter hn.symm hlt
    obtain ⟨rfl, rfl⟩ := List.cons.inj hcd
    exact hp.not_indent_append hblank htag hindent
  have hfilter : p.filter (fun c => !isBreak c) = p :=
    List.filter_eq_self.mpr fun c hc => by simp [(hp.plain hc).1]
  rw [splitLine_eq hlongest, hfilter]

end

end Reflow
