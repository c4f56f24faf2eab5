import Reflow.Comment.Markers
import Reflow.Proofs.Pattern.Fits
import Reflow.Proofs.Text.Split

/-!
# Stretches without words

What the code patterns describe, said without patterns: a comment leader is a `Leader`, a tag that
breaks a paragraph is a `BreakTag`, and a stretch of white space, a leader, white space and a tag,
of which any may be missing, is `Wordless`.  An `Indent` is the same with spelled out tabs among its
first white space.  `IndentOf` says this for other leaders.
-/

namespace Reflow

/-! ## Leaders, tags and white space -/

/-- A comment leader of source code. -/
inductive Leader : Text → Prop
  | opener (n : Nat) : Leader ('/' :: List.replicate (n + 1) '*')
  | closer : Leader ['*', '/']
  | star : Leader ['*']
  | dot : Leader ['.']
  | hashes (n : Nat) : Leader (List.replicate (n + 1) '#')
  | slashes (n : Nat) : Leader (List.replicate (n + 2) '/')
  | semicolons (n : Nat) : Leader (List.replicate (n + 1) ';')
  | dashes : Leader ['-', '-']

/-- A tag that breaks a paragraph, in any letter case. -/
inductive BreakTag : Text → Prop
  | paragraph {p : Char} (hp : p = 'p' ∨ p = 'P') : BreakTag ['<', p, '>']
  | line {b r : Char} {space slash : Text} (hb : b = 'b' ∨ b = 'B') (hr : r = 'r' ∨ r = 'R')
      (hspace : space = [] ∨ space = [' ']) (hslash : slash = [] ∨ slash = ['/']) :
      BreakTag ('<' :: b :: r :: (space ++ slash ++ ['>']))

/-- Nothing but white space. -/
def Blank (t : Text) : Prop := t.all isBlank = true

instance (t : Text) : Decidable (Blank t) :=
  inferInstanceAs (Decidable (_ = true))

/-- Whether a character may stand before the leader of a line whose tabs are spelled out. -/
def isFiller (c : Char) : Bool := isBlank c || c = tabMark

/-- At most one leader, white space and at most one tag. -/
def Marks (t : Text) : Prop :=
  ∃ l b g, t = l ++ (b ++ g) ∧ (l = [] ∨ Leader l) ∧ Blank b ∧ (g = [] ∨ BreakTag g)

/-- White space, at most one leader, white space and at most one tag. -/
def Wordless (t : Text) : Prop :=
  ∃ a m, t = a ++ m ∧ Blank a ∧ Marks m

/-- White space and spelled out tabs, at most one leader, white space and at most one tag. -/
def Indent (t : Text) : Prop :=
  ∃ a m, t = a ++ m ∧ a.all isFiller = true ∧ Marks m

/-- At most one leader of a kind, white space and at most one tag. -/
def MarksOf (leads : Text → Prop) (t : Text) : Prop :=
  ∃ l b g, t = l ++ (b ++ g) ∧ (l = [] ∨ leads l) ∧ Blank b ∧ (g = [] ∨ BreakTag g)

/-- White space and spelled out tabs, at most one leader of a kind, white space and at most one tag. -/
def IndentOf (leads : Text → Prop) (t : Text) : Prop :=
  ∃ a m, t = a ++ m ∧ a.all isFiller = true ∧ MarksOf leads m

/-- A line feed, perhaps after a carriage return. -/
def LineBreak (t : Text) : Prop := t = ['\n'] ∨ t = ['\r', '\n']

@[simp] theorem blank_nil : Blank [] := rfl

@[simp] theorem blank_cons {c : Char} {t : Text} : Blank (c :: t) ↔ isBlank c = true ∧ Blank t := by
  simp [Blank]

@[simp] theorem blank_append {t u : Text} : Blank (t ++ u) ↔ Blank t ∧ Blank u := by
  simp [Blank]

theorem Marks.nil : Marks [] := ⟨[], [], [], rfl, .inl rfl, rfl, .inl rfl⟩

theorem marksOf_leader_iff {t : Text} : MarksOf Leader t ↔ Marks t := Iff.rfl

theorem indentOf_leader_iff {t : Text} : IndentOf Leader t ↔ Indent t := Iff.rfl

theorem Wordless.of_blank {b : Text} (h : Blank b) : Wordless b := ⟨b, [], by simp, h, .nil⟩

theorem Wordless.nil : Wordless [] := .of_blank rfl

theorem Wordless.indent {t : Text} (h : Wordless t) : Indent t := by
  obtain ⟨a, m, rfl, ha, hm⟩ := h
  refine ⟨a, m, rfl, ?_, hm⟩
  simp only [Blank, List.all_eq_true] at ha ⊢
  intro c hc
  simp [isFiller, ha c hc]

theorem Indent.wordless {t : Text} (h : Indent t) (ht : tabMark ∉ t) : Wordless t := by
  obtain ⟨a, m, rfl, ha, hm⟩ := h
  refine ⟨a, m, rfl, ?_, hm⟩
  simp only [Blank, List.all_eq_true] at ha ⊢
  intro c hc
  have hne : c ≠ tabMark := fun h => ht (h ▸ List.mem_append_left _ hc)
  simpa [isFiller, hne] using ha c hc

/-! ## The characters of leaders and tags -/

def isLeaderChar (c : Char) : Bool := ['/', '*', '.', '#', ';', '-'].contains c

theorem Leader.isLeaderChar {l : Text} (h : Leader l) {c : Char} (hc : c ∈ l) :
    isLeaderChar c = true := by
  cases h with
  | opener n =>
    rcases List.mem_cons.mp hc with rfl | hc
    · rfl
    · rw [List.eq_of_mem_replicate hc]
      rfl
  | closer | star | dot | dashes =>
    simp only [List.mem_cons, List.not_mem_nil, or_false, or_self] at hc
    rcases hc with rfl | rfl <;> rfl
  | hashes n | slashes n | semicolons n =>
    rw [List.eq_of_mem_replicate hc]
    rfl

theorem not_isFiller_of_isLeaderChar {c : Char} (h : isLeaderChar c = true) : isFiller c = false := by
  simp only [isLeaderChar, List.contains_cons, List.contains_nil, Bool.or_false, Bool.or_eq_true,
    beq_iff_eq] at h
  rcases h with rfl | rfl | rfl | rfl | rfl | rfl <;> decide

theorem isFiller_of_isBlank {c : Char} (h : isBlank c = true) : isFiller c = true := by
  simp [isFiller, h]

theorem not_isBreak_of_not_isBlank {c : Char} (h : isBlank c = false) : isBreak c = false := by
  rw [← Bool.not_eq_true] at h ⊢
  exact fun hbreak => h (isBlank_of_isBreak hbreak)

theorem not_isBlank_of_not_isFiller {c : Char} (h : isFiller c = false) : isBlank c = false := by
  simp only [isFiller, Bool.or_eq_false_iff] at h
  exact h.1

theorem Leader.ne_nil {l : Text} (h : Leader l) : l ≠ [] := by
  cases h <;> simp [List.replicate_succ]

theorem BreakTag.exists_cons {g : Text} (h : BreakTag g) : ∃ g', g = '<' :: g' := by
  cases h <;> exact ⟨_, rfl⟩

theorem BreakTag.ne_nil {g : Text} (h : BreakTag g) : g ≠ [] := by
  cases h <;> exact List.cons_ne_nil _ _

/-- The one blank in a tag is a space. -/
theorem BreakTag.not_isBlank {g : Text} (h : BreakTag g) {c : Char} (hc : isBlank c = true)
    (hspace : c ≠ ' ') : c ∉ g := by
  intro hmem
  cases h with
  | paragraph hp =>
    simp only [List.mem_cons, List.not_mem_nil, or_false] at hmem
    rcases hp with rfl | rfl <;> rcases hmem with rfl | rfl | rfl <;> exact absurd hc (by decide)
  | line hb hr hs hs' =>
    simp only [List.mem_cons, List.mem_append, List.not_mem_nil, or_false] at hmem
    rcases hmem with rfl | rfl | rfl | (hmem | hmem) | rfl
    · exact absurd hc (by decide)
    · rcases hb with rfl | rfl <;> exact absurd hc (by decide)
    · rcases hr with rfl | rfl <;> exact absurd hc (by decide)
    · rcases hs with rfl | rfl
      · exact absurd hmem List.not_mem_nil
      · exact hspace (List.mem_singleton.mp hmem)
    · rcases hs' with rfl | rfl
      · exact absurd hmem List.not_mem_nil
      · rw [List.mem_singleton.mp hmem] at hc
        exact absurd hc (by decide)
    · exact absurd hc (by decide)

def isTagChar (c : Char) : Bool := ['<', '>', '/', ' ', 'p', 'P', 'b', 'B', 'r', 'R'].contains c

theorem BreakTag.isTagChar {g : Text} {c : Char} (h : BreakTag g) (hc : c ∈ g) : isTagChar c = true := by
  cases h with
  | paragraph hp =>
    simp only [List.mem_cons, List.not_mem_nil, or_false] at hc
    rcases hc with rfl | rfl | rfl
    · rfl
    · rcases hp with rfl | rfl <;> rfl
    · rfl
  | line hb hr hs hs' =>
    simp only [List.mem_cons, List.mem_append, List.not_mem_nil, or_false] at hc
    rcases hc with rfl | rfl | rfl | (hc | hc) | rfl
    · rfl
    · rcases hb with rfl | rfl <;> rfl
    · rcases hr with rfl | rfl <;> rfl
    · rcases hs with rfl | rfl
      · exact absurd hc List.not_mem_nil
      · rw [List.mem_singleton.mp hc]
        rfl
    · rcases hs' with rfl | rfl
      · exact absurd hc List.not_mem_nil
      · rw [List.mem_singleton.mp hc]
        rfl
    · rfl

/-! ## Cutting at white space -/

theorem isBlank_of_mem {t : Text} (h : Blank t) {c : Char} (hc : c ∈ t) : isBlank c = true :=
  List.all_eq_true.mp h c hc

theorem blank_ofLines_iff {ls : List Text} : Blank (Text.ofLines ls) ↔ ∀ line ∈ ls, Blank line := by
  constructor
  · intro h line hline
    exact List.all_eq_true.mpr fun c hc => isBlank_of_mem h (Text.mem_join_of_mem hline hc)
  · intro h
    refine List.all_eq_true.mpr fun c hc => ?_
    rcases Text.mem_join hc with rfl | ⟨line, hline, hc⟩
    · rfl
    · exact isBlank_of_mem (h line hline) hc

theorem all_isFiller_of_blank {t : Text} (h : Blank t) : t.all isFiller = true :=
  List.all_eq_true.mpr fun _ hc => isFiller_of_isBlank (isBlank_of_mem h hc)

theorem blank_replicate (n : Nat) : Blank (List.replicate n ' ') :=
  List.all_eq_true.mpr fun _ hc => List.eq_of_mem_replicate hc ▸ rfl

theorem isBlank_of_mem_spaces {n : Nat} {c : Char} (h : c ∈ List.replicate n ' ') : isBlank c = true :=
  isBlank_of_mem (blank_replicate n) h

section

variable {leads : Text → Prop}

/-- Blanks stand in front of a tag only, or within the one that has a space. -/
theorem MarksOf.split (hleads : ∀ {l : Text}, leads l → ∀ c ∈ l, isLeaderChar c = true) {x y : Text} {c : Char}
    (hc : isBlank c = true) (hspace : c ≠ ' ') (h : MarksOf leads (x ++ c :: y)) :
    MarksOf leads x ∧ ∃ b g, y = b ++ g ∧ Blank b ∧ (g = [] ∨ BreakTag g) := by
  obtain ⟨l, b, g, heq, hl, hb, hg⟩ := h
  rcases append_eq_append_cons heq.symm with ⟨e, rfl, he⟩ | ⟨e, rfl, -⟩
  · rcases append_eq_append_cons he with ⟨e', -, rfl⟩ | ⟨e', rfl, rfl⟩
    · exfalso
      rcases hg with hg | hg
      · simp at hg
      · exact hg.not_isBlank hc hspace (by simp)
    · rw [blank_append, blank_cons] at hb
      exact ⟨⟨l, e, [], by simp, hl, hb.1, .inl rfl⟩, e', g, rfl, hb.2.2, hg⟩
  · exfalso
    rcases hl with hl | hl
    · simp at hl
    · have := not_isBlank_of_not_isFiller (not_isFiller_of_isLeaderChar (hleads hl c (by simp)))
      simp [this] at hc

theorem IndentOf.split (hleads : ∀ {l : Text}, leads l → ∀ c ∈ l, isLeaderChar c = true) {x y : Text} {c : Char}
    (hc : isBlank c = true) (hspace : c ≠ ' ') (h : IndentOf leads (x ++ c :: y)) :
    IndentOf leads x ∧ IndentOf leads y := by
  obtain ⟨a, m, heq, ha, hm⟩ := h
  rcases append_eq_append_cons heq.symm with ⟨e, rfl, rfl⟩ | ⟨e, rfl, rfl⟩
  · obtain ⟨he, b, g, rfl, hb, hg⟩ := hm.split hleads hc hspace
    refine ⟨⟨a, e, rfl, ha, he⟩, b, g, rfl, ?_, [], [], g, rfl, .inl rfl, rfl, hg⟩
    exact all_isFiller_of_blank hb
  · rw [List.all_append, List.all_cons, Bool.and_eq_true, Bool.and_eq_true] at ha
    exact ⟨⟨x, [], by simp, ha.1, [], [], [], rfl, .inl rfl, rfl, .inl rfl⟩, e, m, rfl, ha.2.2, hm⟩

theorem MarksOf.mem_cases (hleads : ∀ {l : Text}, leads l → ∀ c ∈ l, isLeaderChar c = true) {m : Text} {c : Char}
    (h : MarksOf leads m) (hc : c ∈ m) : isLeaderChar c = true ∨ isBlank c = true ∨ isTagChar c = true := by
  obtain ⟨l, b, g, rfl, hl, hb, hg⟩ := h
  rcases List.mem_append.mp hc with hc | hc
  · rcases hl with rfl | hl
    · exact absurd hc List.not_mem_nil
    · exact .inl (hleads hl c hc)
  · rcases List.mem_append.mp hc with hc | hc
    · exact .inr (.inl (isBlank_of_mem hb hc))
    · rcases hg with rfl | hg
      · exact absurd hc List.not_mem_nil
      · exact .inr (.inr (hg.isTagChar hc))

theorem MarksOf.not_mem (hleads : ∀ {l : Text}, leads l → ∀ c ∈ l, isLeaderChar c = true) {m : Text}
    (h : MarksOf leads m) : tabMark ∉ m := fun hmem =>
  absurd (h.mem_cases hleads hmem) (by decide)

theorem IndentOf.append {a r : Text} (ha : a.all isFiller = true) (h : IndentOf leads r) :
    IndentOf leads (a ++ r) := by
  obtain ⟨b, m, rfl, hb, hm⟩ := h
  exact ⟨a ++ b, m, by rw [List.append_assoc], by rw [List.all_append, ha, hb]; rfl, hm⟩

theorem IndentOf.mem_cases {t : Text} {c : Char} (h : IndentOf leads t) (hc : c ∈ t) :
    isFiller c = true ∨ (∃ l, leads l ∧ c ∈ l) ∨ isTagChar c = true := by
  obtain ⟨a, _, rfl, ha, l, b, g, rfl, hl, hb, hg⟩ := h
  simp only [List.mem_append] at hc
  rcases hc with hc | hc | hc | hc
  · exact .inl (List.all_eq_true.mp ha c hc)
  · rcases hl with rfl | hl
    · exact absurd hc List.not_mem_nil
    · exact .inr (.inl ⟨l, hl, hc⟩)
  · exact .inl (isFiller_of_isBlank (isBlank_of_mem hb hc))
  · rcases hg with rfl | hg
    · exact absurd hc List.not_mem_nil
    · exact .inr (.inr (hg.isTagChar hc))

end

theorem Marks.split {x y : Text} {c : Char} (hc : isBlank c = true) (hspace : c ≠ ' ')
    (h : Marks (x ++ c :: y)) : Marks x ∧ Wordless y := by
  obtain ⟨hx, b, g, rfl, hb, hg⟩ := (marksOf_leader_iff.mpr h).split (fun hl _ => hl.isLeaderChar) hc hspace
  exact ⟨hx, b, g, rfl, hb, [], [], g, rfl, .inl rfl, rfl, hg⟩

theorem Wordless.split {x y : Text} {c : Char} (hc : isBlank c = true) (hspace : c ≠ ' ')
    (h : Wordless (x ++ c :: y)) : Wordless x ∧ Wordless y := by
  obtain ⟨a, m, heq, ha, hm⟩ := h
  rcases append_eq_append_cons heq.symm with ⟨e, rfl, rfl⟩ | ⟨e, rfl, rfl⟩
  · obtain ⟨he, hy⟩ := hm.split hc hspace
    exact ⟨⟨a, e, rfl, ha, he⟩, hy⟩
  · rw [blank_append, blank_cons] at ha
    exact ⟨.of_blank ha.1, ⟨e, m, rfl, ha.2.2, hm⟩⟩

theorem Indent.split {x y : Text} {c : Char} (hc : isBlank c = true) (hspace : c ≠ ' ')
    (h : Indent (x ++ c :: y)) : Indent x ∧ Indent y :=
  IndentOf.split (fun hl _ => hl.isLeaderChar) hc hspace h

theorem Indent.cons {c : Char} {t : Text} (hc : isFiller c = true) (h : Indent t) : Indent (c :: t) := by
  obtain ⟨a, m, rfl, ha, hm⟩ := h
  exact ⟨c :: a, m, rfl, by simp [hc, ha], hm⟩

theorem Indent.append {a r : Text} (ha : a.all isFiller = true) (h : Indent r) : Indent (a ++ r) :=
  IndentOf.append ha h

theorem Marks.not_mem {m : Text} (h : Marks m) : tabMark ∉ m :=
  (marksOf_leader_iff.mpr h).not_mem fun hl _ => hl.isLeaderChar

theorem Indent.mem_cases {t : Text} {c : Char} (h : Indent t) (hc : c ∈ t) :
    isFiller c = true ∨ isLeaderChar c = true ∨ isTagChar c = true := by
  rcases (indentOf_leader_iff.mpr h).mem_cases hc with hfiller | ⟨l, hl, hmem⟩ | htag
  · exact .inl hfiller
  · exact .inr (.inl (hl.isLeaderChar hmem))
  · exact .inr (.inr htag)

/-! ## What the patterns describe -/

namespace Pattern

variable {before after : Option Char} {m : Text}

theorem fits_char_iff {c : Char} : Fits (char c) before m after ↔ m = [c] := by
  simp [char]

theorem fits_either_iff {c d : Char} :
    Fits (either c d) before m after ↔ ∃ x, (x = c ∨ x = d) ∧ m = [x] := by
  simp [either]

theorem fits_oneOrMore_char_iff {c : Char} :
    Fits (oneOrMore true (char c)) before m after ↔ ∃ n, m = List.replicate (n + 1) c := by
  change Fits (.repeated true (.one fun d => d = c)) before m after ↔ _
  rw [fits_repeated_one_iff]
  simp only [List.all_eq_true, decide_eq_true_eq]
  constructor
  · rintro ⟨hm, h⟩
    obtain ⟨n, hn⟩ := Nat.exists_eq_succ_of_ne_zero (mt List.eq_nil_of_length_eq_zero hm)
    exact ⟨n, List.eq_replicate_iff.mpr ⟨hn, h⟩⟩
  · rintro ⟨n, rfl⟩
    exact ⟨by simp [List.replicate_succ], fun c hc => List.eq_of_mem_replicate hc⟩

theorem fits_optional_iff {p : Pattern} :
    Fits (optional true p) before m after ↔ Fits p before m after ∨ m = [] := by
  simp [optional, fits_alt_iff]

theorem fits_zeroOrMore_one_iff {accepts : Char → Bool} :
    Fits (zeroOrMore true (.one accepts)) before m after ↔ m.all accepts = true := by
  change Fits (optional true (.repeated true (.one accepts))) before m after ↔ _
  rw [fits_optional_iff, fits_repeated_one_iff]
  constructor
  · rintro (⟨-, h⟩ | rfl)
    · exact h
    · rfl
  · intro h
    by_cases hm : m = []
    · exact .inr hm
    · exact .inl ⟨hm, h⟩

theorem fits_blanks_iff : Fits blanks before m after ↔ Blank m :=
  fits_zeroOrMore_one_iff

theorem fits_filler_iff : Fits filler before m after ↔ m.all isFiller = true :=
  fits_zeroOrMore_one_iff

theorem fits_lineBreak_iff : Fits lineBreak before m after ↔ LineBreak m := by
  simp only [lineBreak, fits_seq_iff, fits_optional_iff, fits_char_iff]
  constructor
  · rintro ⟨k, n, rfl, rfl | rfl, rfl⟩
    · exact .inr rfl
    · exact .inl rfl
  · rintro (rfl | rfl)
    · exact ⟨[], ['\n'], rfl, .inr rfl, rfl⟩
    · exact ⟨['\r'], ['\n'], rfl, .inl rfl, rfl⟩

theorem fits_literal_pair_iff {c d : Char} : Fits (literal [c, d]) before m after ↔ m = [c, d] := by
  simp only [literal, List.map_cons, List.map_nil, row, fits_seq_iff, fits_char_iff]
  constructor
  · rintro ⟨k, n, rfl, rfl, rfl⟩
    rfl
  · rintro rfl
    exact ⟨[c], [d], rfl, rfl, rfl⟩

theorem fits_opener_iff {c d : Char} :
    Fits (.seq (char c) (oneOrMore true (char d))) before m after ↔
      ∃ n, m = c :: List.replicate (n + 1) d := by
  simp only [fits_seq_iff, fits_char_iff, fits_oneOrMore_char_iff]
  constructor
  · rintro ⟨k, _, rfl, rfl, n, rfl⟩
    exact ⟨n, rfl⟩
  · rintro ⟨n, rfl⟩
    exact ⟨[c], _, rfl, rfl, n, rfl⟩

theorem fits_codeLeaders_iff : Fits codeLeaders before m after ↔ m = [] ∨ Leader m := by
  simp only [codeLeaders, choice, fits_optional_iff, fits_alt_iff, fits_opener_iff, fits_char_iff,
    fits_oneOrMore_char_iff, fits_literal_pair_iff]
  constructor
  · rintro ((⟨n, rfl⟩ | rfl | rfl | rfl | ⟨n, rfl⟩ | ⟨n, rfl⟩ | ⟨n, rfl⟩ | rfl) | rfl)
    · exact .inr (.opener n)
    · exact .inr .closer
    · exact .inr .star
    · exact .inr .dot
    · exact .inr (.hashes n)
    · exact .inr (.slashes n)
    · exact .inr (.semicolons n)
    · exact .inr .dashes
    · exact .inl rfl
  · rintro (rfl | h)
    · exact .inr rfl
    · refine .inl ?_
      cases h with
      | opener n => exact .inl ⟨n, rfl⟩
      | closer => simp
      | star => simp
      | dot => simp
      | hashes n => exact .inr (.inr (.inr (.inr (.inl ⟨n, rfl⟩))))
      | slashes n => exact .inr (.inr (.inr (.inr (.inr (.inl ⟨n, rfl⟩)))))
      | semicolons n => exact .inr (.inr (.inr (.inr (.inr (.inr (.inl ⟨n, rfl⟩))))))
      | dashes => simp

theorem fits_tag_iff : Fits tag before m after ↔ BreakTag m := by
  simp only [tag, choice, row, fits_alt_iff, fits_seq_iff, fits_char_iff, fits_either_iff,
    fits_optional_iff]
  constructor
  · rintro (⟨_, _, rfl, rfl, _, _, rfl, ⟨p, hp, rfl⟩, rfl⟩ |
      ⟨_, _, rfl, rfl, _, _, rfl, ⟨b, hb, rfl⟩, _, _, rfl, ⟨r, hr, rfl⟩, space, _, rfl, hspace, slash, _,
        rfl, hslash, rfl⟩)
    · exact .paragraph hp
    · simpa using BreakTag.line hb hr hspace.symm hslash.symm
  · rintro (hp | ⟨hb, hr, hspace, hslash⟩)
    · exact .inl ⟨['<'], _, rfl, rfl, _, _, rfl, ⟨_, hp, rfl⟩, rfl⟩
    · refine .inr ⟨['<'], _, rfl, rfl, _, _, rfl, ⟨_, hb, rfl⟩, _, _, rfl, ⟨_, hr, rfl⟩, _, _, ?_,
        hspace.symm, _, _, rfl, hslash.symm, rfl⟩
      simp

end Pattern

end Reflow
