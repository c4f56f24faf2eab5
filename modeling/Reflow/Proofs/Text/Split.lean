import Reflow.Text.Basic
import Mathlib.Data.List.Basic
import Mathlib.Data.List.Infix

/-!
# Splitting and joining

Splitting a text is settled by two equations, at a separator (`Text.split_append`) and without one
(`Text.split_eq_singleton`).  Splitting at one character and joining with it undo each other.
-/

namespace Reflow

theorem append_eq_append_cons {p q x y : Text} {c : Char} (h : p ++ q = x ++ c :: y) :
    (∃ e, x = p ++ e ∧ q = e ++ c :: y) ∨ ∃ e, p = x ++ c :: e ∧ y = e ++ q := by
  rcases List.append_eq_append_iff.mp h with ⟨e, rfl, rfl⟩ | ⟨e, rfl, he⟩
  · exact .inl ⟨e, rfl, rfl⟩
  · cases e with
    | nil => exact .inl ⟨[], by simp, by simpa using he.symm⟩
    | cons d e =>
      obtain ⟨rfl, rfl⟩ := List.cons.inj he
      exact .inr ⟨e, rfl, rfl⟩

/-- The longer of two starts of a text goes on with a character that the shorter one stops before. -/
theorem exists_cons_of_shorter {m n rest rest' : Text} (h : m ++ rest = n ++ rest')
    (hlt : n.length < m.length) : ∃ c d, m = n ++ c :: d ∧ rest' = c :: (d ++ rest) := by
  rcases List.append_eq_append_iff.mp h with ⟨a, rfl, -⟩ | ⟨d, rfl, rfl⟩
  · rw [List.length_append] at hlt
    omega
  · cases d with
    | nil => simp at hlt
    | cons c d => exact ⟨c, d, rfl, rfl⟩

namespace Text

variable {sep : Char → Bool} {t u : Text} {c : Char}

@[simp] theorem split_nil : split sep [] = [[]] := rfl

theorem split_cons_of_sep (hc : sep c = true) : split sep (c :: t) = [] :: split sep t := by
  obtain ⟨piece, pieces, h⟩ := List.exists_cons_of_ne_nil (split_ne_nil sep t)
  rw [split, h]
  simp [hc]

theorem split_cons_of_not (hc : sep c = false) :
    ∃ piece pieces, split sep t = piece :: pieces ∧ split sep (c :: t) = (c :: piece) :: pieces := by
  obtain ⟨piece, pieces, h⟩ := List.exists_cons_of_ne_nil (split_ne_nil sep t)
  refine ⟨piece, pieces, h, ?_⟩
  rw [split, h]
  simp [hc]

theorem split_append (hc : sep c = true) : split sep (t ++ c :: u) = split sep t ++ split sep u := by
  induction t with
  | nil => simp [split_cons_of_sep hc]
  | cons d t ih =>
    rw [List.cons_append]
    by_cases hd : sep d = true
    · rw [split_cons_of_sep hd, split_cons_of_sep hd, ih, List.cons_append]
    · rw [Bool.not_eq_true] at hd
      obtain ⟨piece, pieces, h, h'⟩ := split_cons_of_not (t := t) hd
      obtain ⟨piece', pieces', g, g'⟩ := split_cons_of_not (t := t ++ c :: u) hd
      rw [ih, h, List.cons_append, List.cons.injEq] at g
      rw [h', g', ← g.1, ← g.2, List.cons_append]

theorem split_eq_singleton (ht : ∀ c ∈ t, sep c = false) : split sep t = [t] := by
  induction t with
  | nil => rfl
  | cons d t ih =>
    obtain ⟨piece, pieces, h, h'⟩ := split_cons_of_not (t := t) (ht d List.mem_cons_self)
    rw [ih fun c hc => ht c (List.mem_cons_of_mem _ hc), List.cons.injEq] at h
    rw [h', ← h.1, ← h.2]

theorem split_cases (sep : Char → Bool) (t : Text) :
    (∀ c ∈ t, sep c = false) ∨ ∃ piece c rest, t = piece ++ c :: rest ∧ sep c = true ∧
      ∀ d ∈ piece, sep d = false := by
  induction t with
  | nil => exact .inl fun c hc => absurd hc List.not_mem_nil
  | cons c t ih =>
    by_cases hc : sep c = true
    · exact .inr ⟨[], c, t, rfl, hc, fun d hd => absurd hd List.not_mem_nil⟩
    · rw [Bool.not_eq_true] at hc
      rcases ih with ih | ⟨piece, d, rest, rfl, hd, hpiece⟩
      · exact .inl (List.forall_mem_cons.mpr ⟨hc, ih⟩)
      · exact .inr ⟨c :: piece, d, rest, rfl, hd, List.forall_mem_cons.mpr ⟨hc, hpiece⟩⟩

theorem split_congr {sep' : Char → Bool} (h : ∀ c ∈ t, sep c = sep' c) : split sep t = split sep' t := by
  induction t with
  | nil => rfl
  | cons c t ih =>
    rw [List.forall_mem_cons] at h
    rw [split, split, ih h.2, h.1]

theorem not_sep_of_mem_split {piece : Text} (h : piece ∈ split sep t) : ∀ c ∈ piece, sep c = false := by
  induction t generalizing piece with
  | nil => simp_all
  | cons d t ih =>
    by_cases hd : sep d = true
    · rw [split_cons_of_sep hd, List.mem_cons] at h
      rcases h with rfl | h
      · simp
      · exact ih h
    · rw [Bool.not_eq_true] at hd
      obtain ⟨first, pieces, g, g'⟩ := split_cons_of_not (t := t) hd
      rw [g', List.mem_cons] at h
      rcases h with rfl | h
      · exact List.forall_mem_cons.mpr ⟨hd, ih (by rw [g]; exact List.mem_cons_self)⟩
      · exact ih (by rw [g]; exact List.mem_cons_of_mem _ h)

theorem exists_around_of_mem_split {piece : Text} (h : piece ∈ split sep t) :
    ∃ x y, t = x ++ (piece ++ y) ∧ (∀ c ∈ x.getLast?, sep c = true) ∧ ∀ c ∈ y.head?, sep c = true := by
  generalize hn : t.length = n
  induction n using Nat.strong_induction_on generalizing t with
  | _ n ih =>
    rcases split_cases sep t with hall | ⟨first, c, rest, rfl, hc, hfirst⟩
    · rw [split_eq_singleton hall, List.mem_singleton] at h
      exact ⟨[], [], by simp [h], by simp, by simp⟩
    · rw [split_append hc, split_eq_singleton hfirst, List.singleton_append, List.mem_cons] at h
      rcases h with rfl | h
      · exact ⟨[], c :: rest, rfl, by simp, by simpa using hc⟩
      · have hlen : rest.length < n := by
          rw [← hn, List.length_append, List.length_cons]
          omega
        obtain ⟨x, y, rfl, hx, hy⟩ := ih rest.length hlen h rfl
        refine ⟨first ++ c :: x, y, by simp, ?_, hy⟩
        cases x with
        | nil => simpa using hc
        | cons d x =>
          rw [List.getLast?_append_of_ne_nil _ (List.cons_ne_nil _ _), List.getLast?_cons_of_ne_nil (List.cons_ne_nil _ _)]
          exact hx

theorem mem_of_mem_split {piece : Text} (h : piece ∈ split sep t) : ∀ c ∈ piece, c ∈ t := by
  obtain ⟨x, y, rfl, -, -⟩ := exists_around_of_mem_split h
  intro c hc
  exact List.mem_append_right _ (List.mem_append_left _ hc)

/-! ## Pieces that are not empty -/

theorem fields_eq_nil (h : ∀ c ∈ t, sep c = true) : fields sep t = [] := by
  refine List.filter_eq_nil_iff.mpr fun piece hpiece => ?_
  cases piece with
  | nil => simp
  | cons c piece =>
    have h₁ := not_sep_of_mem_split hpiece c List.mem_cons_self
    rw [h c (mem_of_mem_split hpiece c List.mem_cons_self)] at h₁
    cases h₁

/-- The pieces of two texts together, where a separator comes before the seam. -/
theorem fields_append (h : ∀ c ∈ t.getLast?, sep c = true) : fields sep (t ++ u) = fields sep t ++ fields sep u := by
  rcases List.eq_nil_or_concat' t with rfl | ⟨t, c, rfl⟩
  · rfl
  · have hc : sep c = true := h c (by simp)
    have happend : t ++ [c] ++ u = t ++ c :: u := by simp
    rw [happend, fields, split_append hc, fields, split_append hc, List.filter_append, List.filter_append]
    show _ = _ ++ [] ++ _
    rw [List.append_nil]
    rfl

/-- The pieces of two texts together, where a separator comes after the seam. -/
theorem fields_append' (h : ∀ c ∈ u.head?, sep c = true) : fields sep (t ++ u) = fields sep t ++ fields sep u := by
  cases u with
  | nil =>
    rw [List.append_nil, fields, fields, split_nil, List.filter_cons_of_neg (by simp), List.filter_nil, List.append_nil]
  | cons c u =>
    have hc : sep c = true := h c rfl
    rw [fields, split_append hc, List.filter_append, fields, fields, split_cons_of_sep hc]
    congr 1

theorem fields_cases (sep : Char → Bool) (t : Text) :
    (∀ c ∈ t, sep c = true) ∨ ∃ b piece rest, t = b ++ (piece ++ rest) ∧ (∀ c ∈ b, sep c = true) ∧
      piece ∈ fields sep t ∧ ∀ c ∈ rest.head?, sep c = true := by
  generalize hn : t.length = n
  induction n using Nat.strong_induction_on generalizing t with
  | _ n ih =>
    rcases split_cases sep t with hall | ⟨first, c, rest, rfl, hc, hfirst⟩
    · cases t with
      | nil => exact .inl fun c hc => absurd hc List.not_mem_nil
      | cons c t =>
        refine .inr ⟨[], c :: t, [], by simp, by simp, ?_, by simp⟩
        rw [fields, split_eq_singleton hall]
        exact List.mem_singleton_self _
    · cases first with
      | nil =>
        have hlen : rest.length < n := by
          rw [← hn]
          exact Nat.lt_succ_self _
        have hfields : fields sep (c :: rest) = fields sep rest := by
          rw [fields, split_cons_of_sep hc]
          exact List.filter_cons_of_neg (by simp)
        rw [List.nil_append, hfields]
        rcases ih rest.length hlen rest rfl with hall | ⟨b, piece, rest', rfl, hb, hpiece, hrest'⟩
        · exact .inl (List.forall_mem_cons.mpr ⟨hc, hall⟩)
        · exact .inr ⟨c :: b, piece, rest', rfl, List.forall_mem_cons.mpr ⟨hc, hb⟩, hpiece, hrest'⟩
      | cons d first =>
        refine .inr ⟨[], d :: first, c :: rest, rfl, by simp, ?_, by simpa using hc⟩
        rw [fields, split_append hc, split_eq_singleton hfirst]
        exact List.mem_cons_self

/-! ## Joining -/

variable {ls : List Text} {line : Text}

@[simp] theorem join_nil : join c [] = [] := rfl

@[simp] theorem join_singleton : join c [line] = line := by simp [join]

theorem join_cons (h : ls ≠ []) : join c (line :: ls) = line ++ c :: join c ls := by
  obtain ⟨line', ls, rfl⟩ := List.exists_cons_of_ne_nil h
  simp [join, List.intercalate_cons_cons]

theorem join_append {ls' : List Text} (h : ls ≠ []) (h' : ls' ≠ []) :
    join c (ls ++ ls') = join c ls ++ c :: join c ls' := by
  induction ls with
  | nil => exact absurd rfl h
  | cons line ls ih =>
    by_cases hls : ls = []
    · subst hls
      simp [join_cons h']
    · rw [List.cons_append, join_cons (by simp [h']), ih hls, join_cons hls]
      simp

theorem join_map_join {groups : List (List Text)} (h : ∀ g ∈ groups, g ≠ []) :
    join c (groups.map (join c)) = join c groups.flatten := by
  induction groups with
  | nil => rfl
  | cons g groups ih =>
    rw [List.forall_mem_cons] at h
    by_cases hgroups : groups = []
    · subst hgroups
      simp
    · have hflat : groups.flatten ≠ [] := by
        obtain ⟨g', groups, rfl⟩ := List.exists_cons_of_ne_nil hgroups
        simp [h.2 g' (by simp)]
      rw [List.map_cons, join_cons (by simpa using hgroups), ih h.2, List.flatten_cons,
        join_append h.1 hflat]

theorem join_splitOn : join c (splitOn c t) = t := by
  induction t with
  | nil => simp [splitOn]
  | cons d t ih =>
    by_cases hd : d = c
    · subst hd
      rw [splitOn, split_cons_of_sep (by simp), join_cons (split_ne_nil _ _)]
      rw [splitOn] at ih
      rw [ih, List.nil_append]
    · obtain ⟨piece, pieces, h, h'⟩ := @split_cons_of_not (fun x => x = c) t d (by simpa using hd)
      rw [splitOn, h] at ih
      rw [splitOn, h']
      cases pieces with
      | nil => rw [join_singleton] at ih ⊢; rw [ih]
      | cons piece' pieces =>
        rw [join_cons (by simp)] at ih ⊢
        rw [List.cons_append, ih]

theorem split_join (hc : sep c = true) (hne : ls ≠ []) (h : ∀ line ∈ ls, ∀ d ∈ line, sep d = false) :
    split sep (join c ls) = ls := by
  induction ls with
  | nil => exact absurd rfl hne
  | cons line ls ih =>
    rw [List.forall_mem_cons] at h
    by_cases hls : ls = []
    · subst hls
      rw [join_singleton, split_eq_singleton h.1]
    · rw [join_cons hls, split_append hc, split_eq_singleton h.1, ih hls h.2]
      rfl

theorem splitOn_join (hne : ls ≠ []) (h : ∀ line ∈ ls, c ∉ line) : splitOn c (join c ls) = ls := by
  refine split_join (by simp) hne fun line hline d hd => ?_
  rw [decide_eq_false_iff_not]
  rintro rfl
  exact h line hline hd

theorem mem_join {d : Char} (h : d ∈ join c ls) : d = c ∨ ∃ line ∈ ls, d ∈ line := by
  induction ls with
  | nil => simp at h
  | cons line ls ih =>
    by_cases hls : ls = []
    · subst hls
      exact .inr ⟨line, List.mem_cons_self, by simpa using h⟩
    · rw [join_cons hls, List.mem_append, List.mem_cons] at h
      rcases h with h | h | h
      · exact .inr ⟨line, List.mem_cons_self, h⟩
      · exact .inl h
      · rcases ih h with rfl | ⟨l, hl, hd⟩
        · exact .inl rfl
        · exact .inr ⟨l, List.mem_cons_of_mem _ hl, hd⟩

theorem mem_join_of_mem {d : Char} (hline : line ∈ ls) (h : d ∈ line) : d ∈ join c ls := by
  induction ls with
  | nil => exact absurd hline List.not_mem_nil
  | cons l ls ih =>
    by_cases hls : ls = []
    · subst hls
      rw [List.mem_singleton] at hline
      rw [join_singleton, ← hline]
      exact h
    · rw [join_cons hls, List.mem_append]
      rcases List.mem_cons.mp hline with rfl | hline
      · exact .inl h
      · exact .inr (List.mem_cons_of_mem _ (ih hline))

theorem length_join (h : ls ≠ []) : (join c ls).length + 1 = ls.flatten.length + ls.length := by
  induction ls with
  | nil => exact absurd rfl h
  | cons line ls ih =>
    by_cases hls : ls = []
    · subst hls
      simp
    · have := ih hls
      rw [join_cons hls]
      simp only [List.length_append, List.length_cons, List.flatten_cons]
      omega

theorem getLast?_join {p : Char → Prop} (hne : ls ≠ [])
    (h : ∀ line ∈ ls, line ≠ [] ∧ ∀ d ∈ line.getLast?, p d) :
    join c ls ≠ [] ∧ ∀ d ∈ (join c ls).getLast?, p d := by
  induction ls with
  | nil => exact absurd rfl hne
  | cons line ls ih =>
    rw [List.forall_mem_cons] at h
    by_cases hls : ls = []
    · subst hls
      rw [join_singleton]
      exact h.1
    · obtain ⟨hjoin, hlast⟩ := ih hls h.2
      rw [join_cons hls, List.getLast?_append_of_ne_nil _ (List.cons_ne_nil _ _),
        List.getLast?_cons_of_ne_nil hjoin]
      exact ⟨by simp, hlast⟩

/-! ## Lines -/

@[simp] theorem lines_nil : lines [] = [[]] := rfl

theorem lines_append : lines (t ++ '\n' :: u) = lines t ++ lines u :=
  split_append (by simp)

theorem lines_ne_nil : lines t ≠ [] := split_ne_nil _ _

theorem lines_eq_singleton (h : '\n' ∉ t) : lines t = [t] := by
  refine split_eq_singleton fun c hc => ?_
  rw [decide_eq_false_iff_not]
  rintro rfl
  exact h hc

theorem split_isBreak_eq_lines (h : '\r' ∉ t) : split isBreak t = lines t := by
  refine split_congr fun c hc => ?_
  have hne : c ≠ '\r' := fun heq => h (heq ▸ hc)
  simp [isBreak, hne]

theorem exists_last_line (h : '\n' ∈ t) : ∃ x y, t = x ++ '\n' :: y ∧ '\n' ∉ y := by
  obtain ⟨y, x, hxy, hy⟩ := List.eq_append_cons_of_mem (List.mem_reverse.mpr h)
  refine ⟨x.reverse, y.reverse, ?_, by simpa using hy⟩
  rw [← List.reverse_reverse t, hxy]
  simp

end Text

end Reflow
