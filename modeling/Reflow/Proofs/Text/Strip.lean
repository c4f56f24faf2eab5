import Reflow.Proofs.Text.Split

/-!
# Dropping the ends of texts

What is left of a text, or of a list of texts, after its ends are dropped: characters of the text,
of which neither the first nor the last one would be dropped.
-/

namespace Reflow.Text

/-! ## What is left -/

theorem mem_of_mem_dropEndWhile {p : Char → Bool} {t : Text} {c : Char} (h : c ∈ dropEndWhile p t) :
    c ∈ t := by
  rw [dropEndWhile, List.mem_reverse] at h
  exact List.mem_reverse.mp ((List.dropWhile_sublist _).mem h)

theorem mem_of_mem_strip {p : Char → Bool} {t : Text} {c : Char} (h : c ∈ strip p t) : c ∈ t :=
  (List.dropWhile_sublist _).mem (mem_of_mem_dropEndWhile h)

theorem mem_of_mem_dropTrailingEmpty {ts : List Text} {t : Text} (h : t ∈ dropTrailingEmpty ts) :
    t ∈ ts := by
  rw [dropTrailingEmpty, List.mem_reverse] at h
  exact List.mem_reverse.mp ((List.dropWhile_sublist _).mem h)

theorem mem_dropTrailingEmpty {ts : List Text} {t : Text} (h : t ∈ ts) (ht : t ≠ []) :
    t ∈ dropTrailingEmpty ts := by
  rw [dropTrailingEmpty, List.mem_reverse]
  have hsplit := List.takeWhile_append_dropWhile (p := List.isEmpty) (l := ts.reverse)
  have hmem : t ∈ ts.reverse.takeWhile List.isEmpty ++ ts.reverse.dropWhile List.isEmpty := by
    rw [hsplit]
    exact List.mem_reverse.mpr h
  rcases List.mem_append.mp hmem with hmem | hmem
  · exact absurd (List.isEmpty_iff.mp (List.all_eq_true.mp List.all_takeWhile t hmem)) ht
  · exact hmem

theorem eq_of_after? {start t rest : Text} (h : after? start t = some rest) : t = start ++ rest := by
  unfold after? at h
  split at h
  · next hprefix =>
    rw [← Option.some.inj h]
    exact List.prefix_iff_eq_append.mp (List.isPrefixOf_iff_prefix.mp hprefix) |>.symm
  · cases h

theorem mem_of_after? {start t rest : Text} (h : after? start t = some rest) {c : Char} (hc : c ∈ rest) :
    c ∈ t := by
  rw [eq_of_after? h]
  exact List.mem_append_right _ hc

theorem exists_replicate_of_dropTrailingEmpty (ts : List Text) :
    ∃ n, ts = dropTrailingEmpty ts ++ List.replicate n [] := by
  refine ⟨(ts.reverse.takeWhile List.isEmpty).length, ?_⟩
  have hempty : (ts.reverse.takeWhile List.isEmpty).reverse =
      List.replicate (ts.reverse.takeWhile List.isEmpty).length [] := by
    rw [List.eq_replicate_iff, List.length_reverse]
    refine ⟨rfl, fun t ht => ?_⟩
    exact List.isEmpty_iff.mp (List.all_eq_true.mp List.all_takeWhile t (List.mem_reverse.mp ht))
  rw [← hempty, dropTrailingEmpty, ← List.reverse_append, List.takeWhile_append_dropWhile, List.reverse_reverse]

theorem flatten_dropTrailingEmpty (ts : List Text) : (dropTrailingEmpty ts).flatten = ts.flatten := by
  obtain ⟨n, h⟩ := exists_replicate_of_dropTrailingEmpty ts
  rw [congrArg List.flatten h, List.flatten_append, List.flatten_replicate_nil, List.append_nil]

theorem length_dropTrailingEmpty_le (ts : List Text) : (dropTrailingEmpty ts).length ≤ ts.length := by
  rw [dropTrailingEmpty, List.length_reverse]
  exact Nat.le_trans (List.dropWhile_sublist _).length_le (Nat.le_of_eq List.length_reverse)

theorem getLast?_dropTrailingEmpty_ne (ts : List Text) : (dropTrailingEmpty ts).getLast? ≠ some [] := by
  rw [dropTrailingEmpty, List.getLast?_reverse]
  intro h
  have := List.head?_dropWhile_not List.isEmpty ts.reverse
  rw [h] at this
  simp at this

/-! ## Stripping -/

variable {p : Char → Bool} {t : Text}

theorem dropWhile_eq_self (h : ∀ c ∈ t.head?, p c = false) : t.dropWhile p = t := by
  cases t with
  | nil => rfl
  | cons c t => exact List.dropWhile_cons_of_neg (by simp [h c rfl])

theorem exists_strip (p : Char → Bool) (t : Text) :
    ∃ a b, t = a ++ (strip p t ++ b) ∧ (∀ c ∈ a, p c = true) ∧ ∀ c ∈ b, p c = true := by
  refine ⟨t.takeWhile p, ((t.dropWhile p).reverse.takeWhile p).reverse, ?_, ?_, ?_⟩
  · rw [strip, dropEndWhile, ← List.reverse_append, List.takeWhile_append_dropWhile, List.reverse_reverse,
      List.takeWhile_append_dropWhile]
  · exact List.all_eq_true.mp List.all_takeWhile
  · intro c hc
    exact List.all_eq_true.mp List.all_takeWhile c (List.mem_reverse.mp hc)

theorem strip_append {a b : Text} (ha : ∀ c ∈ a, p c = true) (hb : ∀ c ∈ b, p c = true)
    (hhead : ∀ c ∈ t.head?, p c = false) (hlast : ∀ c ∈ t.getLast?, p c = false) :
    strip p (a ++ (t ++ b)) = t := by
  cases t with
  | nil =>
    rw [List.nil_append, strip, List.dropWhile_append_of_pos ha]
    rw [← List.append_nil b, List.dropWhile_append_of_pos hb]
    rfl
  | cons d t =>
    rw [strip, List.dropWhile_append_of_pos ha, List.cons_append,
      List.dropWhile_cons_of_neg (by simp [hhead d rfl]), ← List.cons_append, dropEndWhile,
      List.reverse_append, List.dropWhile_append_of_pos (by simpa using hb),
      dropWhile_eq_self (by rwa [List.head?_reverse]), List.reverse_reverse]

theorem mem_strip {c : Char} {x y : Text} (hx : ∃ d ∈ x ++ [c], p d = false)
    (hy : ∃ d ∈ c :: y, p d = false) : c ∈ strip p (x ++ c :: y) := by
  obtain ⟨a, b, heq, ha, hb⟩ := exists_strip p (x ++ c :: y)
  rcases append_eq_append_cons heq.symm with ⟨e, rfl, he⟩ | ⟨e, rfl, -⟩
  · rcases append_eq_append_cons he with ⟨e', -, rfl⟩ | ⟨e', he', -⟩
    · obtain ⟨d, hd, hp⟩ := hy
      rw [hb d (List.mem_append_right _ hd)] at hp
      cases hp
    · rw [he']
      simp
  · obtain ⟨d, hd, hp⟩ := hx
    rcases List.mem_append.mp hd with hd | hd
    · rw [ha d (List.mem_append_left _ hd)] at hp
      cases hp
    · rw [List.mem_singleton.mp hd, ha c (by simp)] at hp
      cases hp

theorem strip_eq_self (hhead : ∀ c ∈ t.head?, p c = false) (hlast : ∀ c ∈ t.getLast?, p c = false) :
    strip p t = t := by
  simpa using strip_append (a := []) (b := []) (by simp) (by simp) hhead hlast

theorem getLast?_strip : ∀ c ∈ (strip p t).getLast?, p c = false := by
  intro c hc
  rw [strip, dropEndWhile, List.getLast?_reverse] at hc
  have := List.head?_dropWhile_not p (t.dropWhile p).reverse
  rw [hc] at this
  simpa using this

theorem head?_strip : ∀ c ∈ (strip p t).head?, p c = false := by
  intro c hc
  obtain ⟨b, hb⟩ : ∃ b, t.dropWhile p = strip p t ++ b := by
    refine ⟨((t.dropWhile p).reverse.takeWhile p).reverse, ?_⟩
    rw [strip, dropEndWhile, ← List.reverse_append, List.takeWhile_append_dropWhile, List.reverse_reverse]
  obtain ⟨u, hu⟩ := List.head?_eq_some_iff.mp hc
  have := List.head?_dropWhile_not p t
  rw [hb, hu] at this
  simpa using this

theorem exists_around_of_mem_strip {c : Char} (hc : c ∈ strip p t) :
    ∃ x y, t = x ++ c :: y ∧ (∃ d ∈ x ++ [c], p d = false) ∧ ∃ d ∈ c :: y, p d = false := by
  obtain ⟨a, b, heq, -, -⟩ := exists_strip p t
  obtain ⟨x, y, hxy⟩ := List.append_of_mem hc
  have hhead := head?_strip (p := p) (t := t)
  have hlast := getLast?_strip (p := p) (t := t)
  rw [hxy] at heq hhead hlast
  refine ⟨a ++ x, y ++ b, by rw [heq]; simp, ?_, ?_⟩
  · cases x with
    | nil => exact ⟨c, by simp, hhead c rfl⟩
    | cons d x => exact ⟨d, by simp, hhead d rfl⟩
  · obtain ⟨d, hd⟩ : ∃ d, (c :: y).getLast? = some d := ⟨_, List.getLast?_eq_some_getLast (List.cons_ne_nil _ _)⟩
    refine ⟨d, ?_, hlast d ?_⟩
    · rw [← List.cons_append]
      exact List.mem_append_left _ (List.mem_of_getLast? hd)
    · rwa [List.getLast?_append_of_ne_nil _ (List.cons_ne_nil _ _)]

end Reflow.Text
