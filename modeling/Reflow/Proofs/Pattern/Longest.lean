import Reflow.Proofs.Pattern.Fits

/-!
# Patterns that prefer the longest match

A match is chosen by preference and not by length.  For patterns that are `Longest` the two agree:
whatever has to hold of the end of a match, the preferred end of which it holds is the last one.
`Pattern.length?_eq_some_iff` then describes the preferred match without any search, as the longest
stretch that fits.
-/

namespace Reflow.Pattern

/-- Whatever an end of a match has to satisfy, the preferred end that does is the last one. -/
def Longest (p : Pattern) : Prop :=
  ∀ (s : Spot) (k : Spot → Bool) (t : Spot), (p.ends s).find? k = some t →
    ∀ u ∈ p.ends s, k u = true → u.offset ≤ t.offset

variable {p q : Pattern}

theorem offset_le_of_mem_ends {s t : Spot} (h : t ∈ p.ends s) : s.offset ≤ t.offset := by
  obtain ⟨m, rest, -, rfl, -⟩ := mem_ends_iff.mp h
  simp

theorem eq_of_mem_ends {s t u : Spot} (ht : t ∈ p.ends s) (hu : u ∈ q.ends s)
    (h : t.offset = u.offset) : t = u := by
  obtain ⟨m, rest, hm, rfl, -⟩ := mem_ends_iff.mp ht
  obtain ⟨n, rest', hn, rfl, -⟩ := mem_ends_iff.mp hu
  simp only [Spot.after_offset, Nat.add_left_cancel_iff] at h
  obtain ⟨rfl, rfl⟩ := List.append_inj (hm.symm.trans hn) h
  rfl

/-! ## Which patterns are -/

theorem longest_of_subsingleton (h : ∀ s, ∀ t ∈ p.ends s, ∀ u ∈ p.ends s, t = u) : p.Longest := by
  intro s k t ht u hu _
  exact Nat.le_of_eq (congrArg Spot.offset (h s u hu t (List.mem_of_find?_eq_some ht)))

theorem longest_empty : Longest .empty := by
  refine longest_of_subsingleton fun s t ht u hu => ?_
  simp only [ends, List.mem_singleton] at ht hu
  rw [ht, hu]

theorem longest_one (accepts : Char → Bool) : Longest (.one accepts) := by
  refine longest_of_subsingleton fun s t ht u hu => eq_of_mem_ends ht hu ?_
  obtain ⟨c, -, rest, -, rfl⟩ := Spot.mem_next?_iff.mp ht
  obtain ⟨d, -, rest', -, rfl⟩ := Spot.mem_next?_iff.mp hu
  rfl

theorem longest_look (holds : Option Char → Option Char → Bool) : Longest (.look holds) := by
  refine longest_of_subsingleton fun s t ht u hu => eq_of_mem_ends ht hu ?_
  obtain ⟨m, rest, -, rfl, hm⟩ := mem_ends_iff.mp ht
  obtain ⟨n, rest', -, rfl, hn⟩ := mem_ends_iff.mp hu
  rw [fits_look_iff] at hm hn
  rw [hm.1, hn.1]
  rfl

theorem find?_flatMap {α β : Type} {l : List α} {f : α → List β} {k : β → Bool} {b : β}
    (h : (l.flatMap f).find? k = some b) :
    ∃ a, l.find? (fun a => (f a).any k) = some a ∧ (f a).find? k = some b := by
  induction l with
  | nil => simp at h
  | cons a l ih =>
    rw [List.flatMap_cons, List.find?_append] at h
    rw [List.find?_cons]
    cases ha : (f a).find? k with
    | some b' =>
      have hany : (f a).any k = true := by
        rw [List.any_eq_true]
        exact ⟨b', List.mem_of_find?_eq_some ha, List.find?_some ha⟩
      rw [ha, Option.some_or, Option.some.injEq] at h
      exact ⟨a, by rw [hany], by rw [ha, h]⟩
    | none =>
      have hany : (f a).any k = false := by
        rw [List.any_eq_false]
        exact List.find?_eq_none.mp ha
      rw [ha, Option.none_or] at h
      rw [hany]
      exact ih h

/-- A sequence prefers the longest match if an earlier end of its first part leads nowhere beyond a
later one, unless the later one leads there as well. -/
theorem Longest.seq (hp : p.Longest) (hq : q.Longest)
    (h : ∀ s, ∀ t ∈ p.ends s, ∀ u ∈ p.ends s, u.offset < t.offset →
      ∀ v ∈ q.ends u, v ∈ q.ends t ∨ v.offset ≤ t.offset) :
    (p.seq q).Longest := by
  intro s k t ht u hu hk
  obtain ⟨a, ha, hat⟩ := find?_flatMap ht
  obtain ⟨b, hb, hbu⟩ := List.mem_flatMap.mp hu
  have hmem : a ∈ p.ends s := List.mem_of_find?_eq_some ha
  have hat' : a.offset ≤ t.offset := offset_le_of_mem_ends (List.mem_of_find?_eq_some hat)
  have hany : (q.ends b).any k = true := List.any_eq_true.mpr ⟨u, hbu, hk⟩
  rcases Nat.lt_or_eq_of_le (hp s _ a ha b hb hany) with hlt | heq
  · rcases h s a hmem b hb hlt u hbu with hmem' | hle
    · exact hq a k t hat u hmem' hk
    · exact Nat.le_trans hle hat'
  · rw [eq_of_mem_ends hb hmem heq] at hbu
    exact hq a k t hat u hbu hk

/-- A choice prefers the longest match if its second branch leads nowhere beyond the first one. -/
theorem Longest.alt (hp : p.Longest) (hq : q.Longest)
    (h : ∀ s, ∀ t ∈ p.ends s, ∀ u ∈ q.ends s, u.offset ≤ t.offset) : (p.alt q).Longest := by
  intro s k t ht u hu hk
  rw [ends, List.find?_append] at ht
  rw [ends, List.mem_append] at hu
  cases hfound : (p.ends s).find? k with
  | some t' =>
    rw [hfound, Option.some_or, Option.some.injEq] at ht
    subst ht
    rcases hu with hu | hu
    · exact hp s k t' hfound u hu hk
    · exact h s t' (List.mem_of_find?_eq_some hfound) u hu
  | none =>
    rw [hfound, Option.none_or] at ht
    rcases hu with hu | hu
    · exact absurd hk (List.find?_eq_none.mp hfound u hu)
    · exact hq s k t ht u hu hk

theorem Longest.optional (hp : p.Longest) : (p.optional true).Longest := by
  refine Longest.alt hp longest_empty fun s t ht u hu => ?_
  simp only [ends, List.mem_singleton] at hu
  rw [hu]
  exact offset_le_of_mem_ends ht

theorem longest_repeated_one (accepts : Char → Bool) : Longest (.repeated true (.one accepts)) := by
  suffices h : ∀ (bound : Text) (s : Spot) (k : Spot → Bool) (t : Spot),
      s.rest.length ≤ bound.length →
      (iterate (Pattern.one accepts).ends true bound s).find? k = some t →
      ∀ u ∈ iterate (Pattern.one accepts).ends true bound s, k u = true → u.offset ≤ t.offset by
    intro s k t
    exact h s.rest s k t (Nat.le_refl _)
  intro bound
  induction bound with
  | nil =>
    intro s k t _ ht
    exact longest_one accepts s k t ht
  | cons c bound ih =>
    intro s k t hbound ht
    cases hs : s.rest with
    | nil =>
      simp [iterate, ends, Spot.next?, hs] at ht
    | cons d rest =>
      by_cases hd : accepts d = true
      · -- a single step goes on to the ends after it, which are later than its own
        have hends : (Pattern.one accepts).ends s = [s.after [d] rest] := by
          simp [ends, Spot.next?, hs, hd, Spot.after]
        have hlen : (s.after [d] rest).rest.length ≤ bound.length := by
          rw [hs] at hbound
          simpa using hbound
        have hiter : iterate (Pattern.one accepts).ends true (c :: bound) s =
            iterate (Pattern.one accepts).ends true bound (s.after [d] rest) ++ [s.after [d] rest] := by
          simp [iterate, hends, show ¬s.offset + 1 ≤ s.offset by omega]
        have hlater : ∀ u ∈ iterate (Pattern.one accepts).ends true bound (s.after [d] rest),
            (s.after [d] rest).offset ≤ u.offset := by
          intro u hu
          obtain ⟨m, rest', -, rfl, -⟩ := (mem_iterate_iff (fun s t => mem_ends_iff) hlen).mp hu
          simp
        rw [hiter] at ht ⊢
        rw [List.find?_append] at ht
        intro u hu hk
        rw [List.mem_append, List.mem_singleton] at hu
        cases hfound : (iterate (Pattern.one accepts).ends true bound (s.after [d] rest)).find? k with
        | some t' =>
          rw [hfound, Option.some_or, Option.some.injEq] at ht
          subst ht
          rcases hu with hu | rfl
          · exact ih _ k t' hlen hfound u hu hk
          · exact hlater t' (List.mem_of_find?_eq_some hfound)
        | none =>
          rw [hfound, Option.none_or] at ht
          rcases hu with hu | rfl
          · exact absurd hk (List.find?_eq_none.mp hfound u hu)
          · exact Nat.le_of_eq (by rw [List.mem_singleton.mp (List.mem_of_find?_eq_some ht)])
      · simp [iterate, ends, Spot.next?, hs, hd] at ht

/-! ## The preferred match -/

/-- The text `t` starts with a stretch `m` that fits and goes on with `rest`, and no longer stretch
at its start fits. -/
structure LongestAt (p : Pattern) (before : Option Char) (t m rest : Text) : Prop where
  split : t = m ++ rest
  fits : Fits p before m rest.head?
  le : ∀ n rest', t = n ++ rest' → Fits p before n rest'.head? → n.length ≤ m.length

variable {before : Option Char} {t m rest : Text}

theorem longestAt_whole (h : Fits p before t none) : LongestAt p before t t [] := by
  refine ⟨by simp, h, fun n rest hn _ => ?_⟩
  rw [hn, List.length_append]
  exact Nat.le_add_right _ _

theorem find?_true_of_head? {α : Type} {l : List α} {a : α} (h : l.head? = some a) :
    l.find? (fun _ => true) = some a := by
  rw [← List.head?_filter, List.filter_true, h]

theorem length?_eq_none_iff :
    p.length? before t = none ↔ ∀ m rest, t = m ++ rest → ¬Fits p before m rest.head? := by
  rw [length?_eq, Option.map_eq_none_iff, List.head?_eq_none_iff, List.eq_nil_iff_forall_not_mem]
  constructor
  · intro h m rest ht hm
    exact h _ (mem_ends_iff.mpr ⟨m, rest, ht, rfl, hm⟩)
  · intro h u hu
    obtain ⟨m, rest, ht, -, hm⟩ := mem_ends_iff.mp hu
    exact h m rest ht hm

/-- The preferred match is the longest stretch that fits. -/
theorem length?_eq_some_iff (hp : p.Longest) {n : Nat} :
    p.length? before t = some n ↔ ∃ m rest, LongestAt p before t m rest ∧ m.length = n := by
  have hends : ∀ u, u ∈ p.ends ⟨0, before, t⟩ ↔
      ∃ m rest, t = m ++ rest ∧ u = (⟨0, before, t⟩ : Spot).after m rest ∧ Fits p before m rest.head? :=
    fun u => mem_ends_iff
  rw [length?_eq, Option.map_eq_some_iff]
  constructor
  · rintro ⟨u, hu, rfl⟩
    obtain ⟨m, rest, ht, rfl, hm⟩ := (hends u).mp (List.mem_of_head? hu)
    refine ⟨m, rest, ⟨ht, hm, fun n rest' ht' hn => ?_⟩, by simp⟩
    have hfind := find?_true_of_head? hu
    simpa using hp _ _ _ hfind _ ((hends _).mpr ⟨n, rest', ht', rfl, hn⟩) rfl
  · rintro ⟨m, rest, ⟨ht, hm, hle⟩, rfl⟩
    have hmem := (hends _).mpr ⟨m, rest, ht, rfl, hm⟩
    obtain ⟨u, hu⟩ : ∃ u, (p.ends ⟨0, before, t⟩).head? = some u := by
      cases h : p.ends ⟨0, before, t⟩ with
      | nil => rw [h] at hmem; exact absurd hmem List.not_mem_nil
      | cons u l => exact ⟨u, rfl⟩
    refine ⟨u, hu, ?_⟩
    have hfind := find?_true_of_head? hu
    obtain ⟨n, rest', ht', rfl, hn⟩ := (hends u).mp (List.mem_of_head? hu)
    have h₁ := hp _ _ _ hfind _ hmem rfl
    have h₂ := hle n rest' ht' hn
    simp only [Spot.after_offset] at h₁ ⊢
    omega

theorem LongestAt.length?_eq (hp : p.Longest) (h : LongestAt p before t m rest) :
    p.length? before t = some m.length :=
  (length?_eq_some_iff hp).mpr ⟨m, rest, h, rfl⟩

end Reflow.Pattern
