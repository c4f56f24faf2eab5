import Reflow.Proofs.Break.Lines

/-!
# Breaking a text again

The lines of a text that ends in a word are joined by spaces and broken again.  Both ways to break
give the same lines: the greedy one if no line starts with a space (`greedy_join`), the ragged one
since joining its lines gives the text (`join_ragged`).  A text of words with single spaces between
them is broken into groups of those words (`Breaks.exists_groups`).
-/

namespace Reflow.Break

variable {width n : Nat} {t line rest : Text} {ls : List Text}

/-! ## The number of characters -/

theorem Breaks.length_le (h : Breaks t ls) : ls.flatten.length + ls.length ≤ t.length + 1 := by
  induction h with
  | last line => simp
  | skip h ih =>
    rw [List.length_cons]
    omega
  | cons line h ih =>
    rw [List.flatten_cons, List.length_append, List.length_cons, List.length_append, List.length_cons]
    omega

/-! ## Where a line ends -/

theorem cutLast?_eq_none_iff : cutLast? n t = none ↔ ' ' ∉ t.take n := by
  induction n, t using cutLast?.induct with
  | case1 t => simp [cutLast?]
  | case2 n => cases n <;> simp [cutLast?]
  | case3 n c t line rest hcut ih =>
    have hmem : ' ' ∈ t.take n := by
      by_contra h
      rw [ih.mpr h] at hcut
      cases hcut
    simp [cutLast?, hcut, hmem]
  | case4 n t hcut ih => simp [cutLast?, hcut]
  | case5 n c t hcut hc ih => simp [cutLast?, hcut, hc, ih.mp hcut, Ne.symm hc]

theorem cutLast?_append (hlt : line.length < n) (h : ' ' ∉ rest.take (n - 1 - line.length)) :
    cutLast? n (line ++ ' ' :: rest) = some (line, rest) := by
  induction line generalizing n with
  | nil =>
    obtain ⟨n, rfl⟩ := Nat.exists_eq_succ_of_ne_zero (Nat.ne_of_gt hlt)
    rw [List.nil_append, cutLast?, cutLast?_eq_none_iff.mpr (by simpa using h)]
    rfl
  | cons c line ih =>
    obtain ⟨n, rfl⟩ := Nat.exists_eq_succ_of_ne_zero (Nat.ne_zero_of_lt hlt)
    rw [List.length_cons] at hlt h
    rw [List.cons_append, cutLast?, ih (by omega) (by convert h using 3; omega)]

theorem not_mem_take_of_cutLast? (h : cutLast? n t = some (line, rest)) :
    line.length < n ∧ ' ' ∉ rest.take (n - 1 - line.length) := by
  induction n, t using cutLast?.induct generalizing line with
  | case1 t => simp [cutLast?] at h
  | case2 n => cases n <;> simp [cutLast?] at h
  | case3 n c t line' rest' hcut ih =>
    simp only [cutLast?, hcut, Option.some.injEq, Prod.mk.injEq] at h
    obtain ⟨rfl, rfl⟩ := h
    obtain ⟨hlt, hmem⟩ := ih hcut
    refine ⟨by simpa using hlt, ?_⟩
    rw [List.length_cons]
    convert hmem using 3
    omega
  | case4 n t hcut ih =>
    simp only [cutLast?, hcut, if_true, Option.some.injEq, Prod.mk.injEq] at h
    obtain ⟨rfl, rfl⟩ := h
    exact ⟨by simp, by simpa using cutLast?_eq_none_iff.mp hcut⟩
  | case5 n c t hcut hc ih => simp [cutLast?, hcut, hc] at h

theorem cutFirst?_append (h : ' ' ∉ line) : cutFirst? (line ++ ' ' :: rest) = some (line, rest) := by
  induction line with
  | nil => rfl
  | cons c line ih =>
    rw [List.mem_cons, not_or] at h
    rw [List.cons_append, cutFirst?, if_neg (Ne.symm h.1), ih h.2]
    rfl

theorem not_mem_of_cutFirst? (h : cutFirst? t = some (line, rest)) : ' ' ∉ line := by
  induction t generalizing line with
  | nil => cases h
  | cons c t ih =>
    by_cases hc : c = ' '
    · simp only [cutFirst?, hc, if_true, Option.some.injEq, Prod.mk.injEq] at h
      simp [← h.1]
    · simp only [cutFirst?, hc, if_false, Option.map_eq_some_iff, Prod.mk.injEq] at h
      obtain ⟨⟨l, r⟩, hcut, rfl, rfl⟩ := h
      simp [ih hcut, Ne.symm hc]

theorem cutLine?_eq_none_iff : cutLine? width t = none ↔ ' ' ∉ t := by
  rw [cutLine?, Option.or_eq_none_iff, cutLast?_eq_none_iff]
  constructor
  · rintro ⟨-, hfirst⟩ hmem
    obtain ⟨line, rest, rfl, hline⟩ := List.eq_append_cons_of_mem hmem
    rw [cutFirst?_append hline] at hfirst
    cases hfirst
  · intro hmem
    refine ⟨fun hmem' => hmem (List.mem_of_mem_take hmem'), ?_⟩
    cases hcut : cutFirst? t with
    | none => rfl
    | some cut => exact absurd (by simp [eq_of_cutFirst? hcut]) hmem

/-- A line ends at the last space that keeps it within the width, or at the first one of all. -/
def EndsLine (width : Nat) (line rest : Text) : Prop :=
  line.length ≤ width ∧ ' ' ∉ rest.take (width - line.length) ∨ width < line.length ∧ ' ' ∉ line

theorem EndsLine.cutLine? (h : EndsLine width line rest) :
    cutLine? width (line ++ ' ' :: rest) = some (line, rest) := by
  rcases h with ⟨hle, hrest⟩ | ⟨hlt, hline⟩
  · rw [Break.cutLine?, cutLast?_append (by omega) (by simpa using hrest), Option.some_or]
  · have hnone : cutLast? (width + 1) (line ++ ' ' :: rest) = none := by
      rw [cutLast?_eq_none_iff, List.take_append_of_le_length (by omega)]
      exact fun hmem => hline (List.mem_of_mem_take hmem)
    rw [Break.cutLine?, hnone, Option.none_or, cutFirst?_append hline]

theorem endsLine_of_cutLine? (h : cutLine? width t = some (line, rest)) : EndsLine width line rest := by
  rcases Option.or_eq_some_iff.mp h with h | ⟨hnone, h⟩
  · obtain ⟨hlt, hrest⟩ := not_mem_take_of_cutLast? h
    exact .inl ⟨by omega, by simpa using hrest⟩
  · have hline := not_mem_of_cutFirst? h
    refine .inr ⟨?_, hline⟩
    -- a shorter line would end at a space within the width
    by_contra hle
    rw [cutLast?_eq_none_iff, eq_of_cutFirst? h] at hnone
    refine hnone (List.mem_take_iff_getElem.mpr ⟨line.length, ?_, ?_⟩)
    · simp only [List.length_append, List.length_cons]
      omega
    · simp

/-! ## Greedy breaking -/

theorem fill_whole (h : t.length ≤ width ∨ ' ' ∉ t) : fill width t = [t] := by
  by_cases hle : t.length ≤ width
  · exact fill_of_le hle
  · have hspace := h.resolve_left hle
    refine fill_uncut (Nat.not_le.mp hle) (fun hhead => hspace ?_) (cutLine?_eq_none_iff.mpr hspace)
    exact List.mem_of_head? hhead

/-- What holds of a text that is one line, is kept by a space in front of a text, and is kept by a line in front of
the lines of the rest, holds of the lines of every text. -/
theorem fill_induction {motive : Text → List Text → Prop}
    (whole : ∀ t, t.length ≤ width ∨ ' ' ∉ t → motive t [t])
    (space : ∀ t, motive t (fill width t) → motive (' ' :: t) (fill width t))
    (cut : ∀ line rest, line ≠ [] → line.head? ≠ some ' ' → EndsLine width line rest →
      width < (line ++ ' ' :: rest).length → motive rest (fill width rest) →
      motive (line ++ ' ' :: rest) (line :: fill width rest)) (t : Text) : motive t (fill width t) := by
  generalize hn : t.length = n
  induction n using Nat.strong_induction_on generalizing t with
  | _ n ih =>
    by_cases hwhole : t.length ≤ width ∨ ' ' ∉ t
    · rw [fill_whole hwhole]
      exact whole t hwhole
    rw [not_or, Nat.not_le, not_not] at hwhole
    obtain ⟨hle, hmem⟩ := hwhole
    by_cases hspace : t.head? = some ' '
    · obtain ⟨rest, rfl⟩ := List.head?_eq_some_iff.mp hspace
      rw [fill_space hle]
      exact space rest (ih rest.length (by simp [← hn]) rest rfl)
    cases hcut : cutLine? width t with
    | none => exact absurd hmem (cutLine?_eq_none_iff.mp hcut)
    | some c =>
      obtain ⟨line, rest⟩ := c
      have heq := eq_of_cutLine? hcut
      rw [fill_cut hle hspace hcut]
      rw [heq] at hle hspace hn ⊢
      have hne : line ≠ [] := by
        rintro rfl
        exact hspace rfl
      rw [List.head?_append_of_ne_nil _ hne] at hspace
      refine cut line rest hne hspace (endsLine_of_cutLine? hcut) hle (ih rest.length ?_ rest rfl)
      rw [← hn, List.length_append, List.length_cons]
      omega

theorem EndsLine.join (h : EndsLine width line rest) (hls : Breaks rest ls)
    (hlt : width < (line ++ ' ' :: rest).length) :
    EndsLine width line (Text.join ' ' ls) ∧ width < (line ++ ' ' :: Text.join ' ' ls).length := by
  rw [List.length_append, List.length_cons] at hlt ⊢
  rcases h with ⟨hle, hrest⟩ | ⟨hlong, hline⟩
  · obtain ⟨first, ls, rfl⟩ := List.exists_cons_of_ne_nil hls.ne_nil
    obtain ⟨hfirst, htake⟩ := hls.take_head (by omega) hrest
    obtain ⟨more, hmore⟩ : ∃ more, Text.join ' ' (first :: ls) = first ++ more := by
      rcases eq_or_ne ls [] with rfl | hne
      · exact ⟨[], by simp⟩
      · exact ⟨_, Text.join_cons hne⟩
    rw [hmore, List.length_append]
    refine ⟨.inl ⟨hle, ?_⟩, by omega⟩
    rwa [List.take_append_of_le_length hfirst, htake]
  · exact ⟨.inr ⟨hlong, hline⟩, by omega⟩

/-- Breaking the lines that a text was broken into breaks them in the same places. -/
theorem fill_join_fill (hend : t.getLast? ≠ some ' ')
    (h : ∀ line ∈ fill width t, line.head? ≠ some ' ') :
    fill width (Text.join ' ' (fill width t)) = fill width t := by
  induction t using fill_induction with
  | whole t hwhole => rw [Text.join_singleton, fill_whole hwhole]
  | space t ih =>
    have hne : t ≠ [] := by
      rintro rfl
      exact hend rfl
    rw [List.getLast?_cons_of_ne_nil hne] at hend
    exact ih hend h
  | cut line rest hline hhead hends hlt ih =>
    rw [List.forall_mem_cons] at h
    have hrest := breaks_fill width rest
    have hne : rest ≠ [] := by
      rintro rfl
      simp at hend
    rw [List.getLast?_append_of_ne_nil _ (List.cons_ne_nil _ _), List.getLast?_cons_of_ne_nil hne] at hend
    obtain ⟨hends, hlt⟩ := hends.join hrest hlt
    have hspace : (line ++ ' ' :: Text.join ' ' (fill width rest)).head? ≠ some ' ' := by
      rwa [List.head?_append_of_ne_nil _ hline]
    rw [Text.join_cons hrest.ne_nil, fill_cut hlt hspace hends.cutLine?, ih hend h.2]

theorem greedy_eq_fill (ht : t ≠ []) (hend : t.getLast? ≠ some ' ') :
    greedy t width = fill (max width 1) t :=
  (breaks_fill _ _).dropTrailingEmpty_eq_self ht hend

theorem greedy_join (ht : t ≠ []) (hend : t.getLast? ≠ some ' ')
    (h : ∀ line ∈ greedy t width, line.head? ≠ some ' ') :
    greedy (Text.join ' ' (greedy t width)) width = greedy t width := by
  rw [greedy_eq_fill ht hend] at h ⊢
  rw [greedy, fill_join_fill hend h]
  exact (breaks_fill _ _).dropTrailingEmpty_eq_self ht hend

/-! ## Ragged breaking -/

theorem join_ragged (ht : t ≠ []) (hend : t.getLast? ≠ some ' ') : Text.join ' ' (ragged t width) = t := by
  rw [ragged, (breaks_ragged _ _).dropTrailingEmpty_eq_self ht hend]
  obtain ⟨hflat, hne⟩ := covers_layout (max width 1) (Text.splitOn ' ' t)
  rw [Text.join_map_join fun g hg => hne g (List.mem_reverse.mp hg), hflat, Text.join_splitOn]

/-! ## Words with single spaces between them -/

theorem join_of_words {words : List Text} (hne : words ≠ []) (hwords : ∀ word ∈ words, word ≠ [] ∧ ' ' ∉ word) :
    Text.join ' ' words ≠ [] ∧ (Text.join ' ' words).getLast? ≠ some ' ' ∧
      Text.splitOn ' ' (Text.join ' ' words) = words := by
  obtain ⟨ht, hlast⟩ := Text.getLast?_join (p := fun c => c ≠ ' ') (c := ' ') hne fun word hword =>
    ⟨(hwords word hword).1, fun d hd heq => (hwords word hword).2 (heq ▸ List.mem_of_getLast? hd)⟩
  exact ⟨ht, fun hspace => hlast _ hspace rfl, Text.splitOn_join hne fun word hword => (hwords word hword).2⟩

/-- The lines of a text with single spaces are groups of its words. -/
theorem Breaks.exists_groups (h : Breaks t ls) {words : List Text} (hwords : Text.splitOn ' ' t = words)
    (hne : ∀ word ∈ words, word ≠ []) :
    ∃ groups : List (List Text), ls = groups.map (Text.join ' ') ∧ groups.flatten = words ∧
      ∀ g ∈ groups, g ≠ [] := by
  induction h generalizing words with
  | last line =>
    refine ⟨[words], ?_, by simp, ?_⟩
    · rw [List.map_singleton, ← hwords, Text.join_splitOn]
    · rw [← hwords]
      simp [Text.splitOn, Text.split_ne_nil]
  | @skip t ls h ih =>
    -- a space at the start would come after an empty word
    rw [Text.splitOn, Text.split_cons_of_sep (by simp)] at hwords
    exact absurd rfl (hne [] (by rw [← hwords]; exact List.mem_cons_self))
  | @cons line t ls h ih =>
    rw [Text.splitOn, Text.split_append (by simp)] at hwords
    have hne' : ∀ word ∈ Text.splitOn ' ' t, word ≠ [] := fun word hword =>
      hne word (by rw [← hwords]; exact List.mem_append_right _ hword)
    obtain ⟨groups, rfl, hflat, hgroups⟩ := ih rfl hne'
    refine ⟨Text.splitOn ' ' line :: groups, ?_, ?_, ?_⟩
    · rw [List.map_cons, Text.join_splitOn]
    · rw [List.flatten_cons, hflat]
      exact hwords
    · exact List.forall_mem_cons.mpr ⟨Text.split_ne_nil _ _, hgroups⟩

end Reflow.Break
