import Reflow.Pattern.Basic
import Mathlib.Data.List.Basic

/-!
# What a pattern matches

`Pattern.Fits p before m after` says that `p` describes the stretch `m` where it stands between the
characters `before` and `after`, without any word on preference.  `Pattern.mem_ends_iff` is the
main statement: the spots at which a match can end are the ends of the stretches that fit.
-/

namespace Reflow

/-- The spot after a stretch `m`, where `rest` is what follows it. -/
def Spot.after (s : Spot) (m rest : Text) : Spot :=
  ⟨s.offset + m.length, m.getLast?.or s.before, rest⟩

namespace Spot

@[simp] theorem after_offset (s : Spot) (m rest : Text) :
    (s.after m rest).offset = s.offset + m.length := rfl

@[simp] theorem after_before (s : Spot) (m rest : Text) :
    (s.after m rest).before = m.getLast?.or s.before := rfl

@[simp] theorem after_rest (s : Spot) (m rest : Text) : (s.after m rest).rest = rest := rfl

@[simp] theorem after_nil (s : Spot) : s.after [] s.rest = s := rfl

@[simp] theorem after_after (s : Spot) (m n rest rest' : Text) :
    (s.after m rest).after n rest' = s.after (m ++ n) rest' := by
  simp only [after, List.length_append, List.getLast?_append, Option.or_assoc, Spot.mk.injEq,
    and_true]
  omega

theorem mem_next?_iff {accepts : Char → Bool} {s t : Spot} :
    t ∈ s.next? accepts ↔ ∃ c, accepts c = true ∧ ∃ rest, s.rest = c :: rest ∧ t = s.after [c] rest := by
  unfold next?
  cases hs : s.rest with
  | nil => simp
  | cons c rest =>
    by_cases hc : accepts c = true
    · constructor
      · intro h
        simp only [hc, if_true, List.mem_singleton] at h
        exact ⟨c, hc, rest, rfl, h⟩
      · rintro ⟨c', -, rest', heq, rfl⟩
        obtain ⟨rfl, rfl⟩ := List.cons.inj heq
        simp [hc, after]
    · simp only [hc, if_neg, Bool.false_eq_true, not_false_eq_true, List.not_mem_nil, false_iff]
      rintro ⟨c', hc', rest', heq, -⟩
      obtain ⟨rfl, rfl⟩ := List.cons.inj heq
      exact hc hc'

end Spot

namespace Pattern

/-- A pattern describes a stretch of text between two characters, or ends of the text. -/
inductive Fits : Pattern → Option Char → Text → Option Char → Prop
  | empty {before after} : Fits .empty before [] after
  | one {accepts before c after} (h : accepts c = true) : Fits (.one accepts) before [c] after
  | look {holds before after} (h : holds before after = true) : Fits (.look holds) before [] after
  | seq {p q before m n after} (h : Fits p before m (n.head?.or after))
      (h' : Fits q (m.getLast?.or before) n after) : Fits (.seq p q) before (m ++ n) after
  | first {p q before m after} (h : Fits p before m after) : Fits (.alt p q) before m after
  | second {p q before m after} (h : Fits q before m after) : Fits (.alt p q) before m after
  | once {greedy p before m after} (h : Fits p before m after) :
      Fits (.repeated greedy p) before m after
  | more {greedy p before m n after} (h : Fits p before m (n.head?.or after))
      (h' : Fits (.repeated greedy p) (m.getLast?.or before) n after) :
      Fits (.repeated greedy p) before (m ++ n) after

/-! ## One constructor at a time -/

variable {p q : Pattern} {before after : Option Char} {m : Text}

@[simp] theorem fits_empty_iff : Fits .empty before m after ↔ m = [] := by
  constructor
  · rintro ⟨⟩
    rfl
  · rintro rfl
    exact .empty

@[simp] theorem fits_one_iff {accepts : Char → Bool} :
    Fits (.one accepts) before m after ↔ ∃ c, accepts c = true ∧ m = [c] := by
  constructor
  · rintro ⟨⟩
    exact ⟨_, ‹_›, rfl⟩
  · rintro ⟨c, hc, rfl⟩
    exact .one hc

@[simp] theorem fits_look_iff {holds : Option Char → Option Char → Bool} :
    Fits (.look holds) before m after ↔ m = [] ∧ holds before after = true := by
  constructor
  · rintro ⟨⟩
    exact ⟨rfl, ‹_›⟩
  · rintro ⟨rfl, h⟩
    exact .look h

theorem fits_seq_iff :
    Fits (.seq p q) before m after ↔
      ∃ k n, m = k ++ n ∧ Fits p before k (n.head?.or after) ∧ Fits q (k.getLast?.or before) n after := by
  constructor
  · intro h
    cases h with
    | seq h h' => exact ⟨_, _, rfl, h, h'⟩
  · rintro ⟨k, n, rfl, h, h'⟩
    exact .seq h h'

theorem fits_alt_iff :
    Fits (.alt p q) before m after ↔ Fits p before m after ∨ Fits q before m after := by
  constructor
  · intro h
    cases h with
    | first h => exact .inl h
    | second h => exact .inr h
  · rintro (h | h)
    · exact .first h
    · exact .second h

theorem fits_repeated_one_iff {greedy : Bool} {accepts : Char → Bool} :
    Fits (.repeated greedy (.one accepts)) before m after ↔ m ≠ [] ∧ m.all accepts = true := by
  constructor
  · intro h
    generalize hp : Pattern.repeated greedy (.one accepts) = p at h
    induction h with
    | once h =>
      cases hp
      obtain ⟨c, hc, rfl⟩ := fits_one_iff.mp h
      simp [hc]
    | more h _ _ ih =>
      cases hp
      obtain ⟨c, hc, rfl⟩ := fits_one_iff.mp h
      simp [hc, (ih rfl).2]
    | _ => cases hp
  · rintro ⟨hm, h⟩
    induction m generalizing before with
    | nil => exact absurd rfl hm
    | cons c m ih =>
      simp only [List.all_cons, Bool.and_eq_true] at h
      cases m with
      | nil => exact .once (.one h.1)
      | cons d m => exact .more (m := [c]) (.one h.1) (ih (by simp) h.2)

/-! ## Repetitions -/

/-- A repetition fits once, or its first step that takes a character can be split off. -/
theorem fits_repeated_cases {greedy : Bool} (h : Fits (.repeated greedy p) before m after) :
    Fits p before m after ∨
      ∃ k n, k ≠ [] ∧ m = k ++ n ∧ Fits p before k (n.head?.or after) ∧
        Fits (.repeated greedy p) (k.getLast?.or before) n after := by
  generalize hp : Pattern.repeated greedy p = r at h
  induction h with
  | once h =>
    cases hp
    exact .inl h
  | @more greedy p before k n after h h' _ ih =>
    cases hp
    by_cases hk : k = []
    · subst hk
      exact ih rfl
    · exact .inr ⟨k, n, hk, rfl, h, h'⟩
  | _ => cases hp

theorem mem_iterate_cons_iff {step : Spot → List Spot} {greedy : Bool} {c : Char} {bound : Text}
    {s t : Spot} :
    t ∈ iterate step greedy (c :: bound) s ↔
      ∃ u ∈ step s, t = u ∨ s.offset < u.offset ∧ t ∈ iterate step greedy bound u := by
  simp only [iterate, List.mem_flatMap]
  refine exists_congr fun u => and_congr_right fun _ => ?_
  by_cases hu : u.offset ≤ s.offset
  · simp [hu, Nat.not_lt.mpr hu]
  · have hu' : s.offset < u.offset := Nat.not_le.mp hu
    cases greedy <;> simp [hu, hu', or_comm]

theorem mem_iterate_iff {step : Spot → List Spot} {greedy : Bool}
    (hstep : ∀ s t, t ∈ step s ↔
      ∃ m rest, s.rest = m ++ rest ∧ t = s.after m rest ∧ Fits p s.before m rest.head?)
    {bound : Text} {s t : Spot} (hbound : s.rest.length ≤ bound.length) :
    t ∈ iterate step greedy bound s ↔
      ∃ m rest, s.rest = m ++ rest ∧ t = s.after m rest ∧
        Fits (.repeated greedy p) s.before m rest.head? := by
  induction bound generalizing s t with
  | nil =>
    have hs : s.rest = [] := List.eq_nil_of_length_eq_zero (Nat.le_zero.mp hbound)
    rw [iterate, hstep]
    refine exists_congr fun m => exists_congr fun rest => and_congr_right fun hm =>
      and_congr_right fun _ => ⟨.once, fun h => ?_⟩
    rw [hs, eq_comm, List.append_eq_nil_iff] at hm
    rcases fits_repeated_cases h with h | ⟨k, n, hk, hkn, -, -⟩
    · exact h
    · rw [hm.1, eq_comm, List.append_eq_nil_iff] at hkn
      exact absurd hkn.1 hk
  | cons c bound ih =>
    rw [mem_iterate_cons_iff]
    constructor
    · rintro ⟨u, hu, ht⟩
      obtain ⟨m, rest, hrest, rfl, hfits⟩ := (hstep s u).mp hu
      rcases ht with rfl | ⟨hlt, ht⟩
      · exact ⟨m, rest, hrest, rfl, .once hfits⟩
      · -- the step took a character, so that the bound is one shorter
        have hlen : rest.length ≤ bound.length := by
          have := congrArg List.length hrest
          simp only [Spot.after_offset] at hlt
          simp only [List.length_append] at this
          simp only [List.length_cons] at hbound
          omega
        obtain ⟨n, rest', hrest', rfl, hfits'⟩ := (ih (s := s.after m rest) hlen).mp ht
        simp only [Spot.after_rest] at hrest'
        refine ⟨m ++ n, rest', by rw [hrest, hrest', List.append_assoc], by simp, .more ?_ hfits'⟩
        rwa [hrest', List.head?_append] at hfits
    · rintro ⟨m, rest, hrest, rfl, hfits⟩
      rcases fits_repeated_cases hfits with hfits | ⟨k, n, hk, rfl, hfits, hfits'⟩
      · exact ⟨_, (hstep s _).mpr ⟨m, rest, hrest, rfl, hfits⟩, .inl rfl⟩
      · have hpos : 0 < k.length := List.length_pos_iff.mpr hk
        have hlen : (n ++ rest).length ≤ bound.length := by
          have := congrArg List.length hrest
          simp only [List.length_append] at this ⊢
          simp only [List.length_cons] at hbound
          omega
        refine ⟨s.after k (n ++ rest), (hstep s _).mpr ⟨k, n ++ rest, ?_, rfl, ?_⟩,
          .inr ⟨?_, ?_⟩⟩
        · rw [hrest, List.append_assoc]
        · rwa [List.head?_append]
        · simp only [Spot.after_offset]
          omega
        · exact (ih (s := s.after k (n ++ rest)) hlen).mpr ⟨n, rest, rfl, by simp, hfits'⟩

/-! ## Ends of matches -/

/-- The spots at which a match can end are the ends of the stretches that fit. -/
theorem mem_ends_iff {s t : Spot} :
    t ∈ p.ends s ↔
      ∃ m rest, s.rest = m ++ rest ∧ t = s.after m rest ∧ Fits p s.before m rest.head? := by
  induction p generalizing s t with
  | empty =>
    simp only [ends, List.mem_singleton, fits_empty_iff]
    constructor
    · rintro rfl
      exact ⟨[], t.rest, rfl, rfl, rfl⟩
    · rintro ⟨m, rest, hrest, rfl, rfl⟩
      rw [← List.nil_append rest, ← hrest, Spot.after_nil]
  | one accepts =>
    simp only [ends, Spot.mem_next?_iff, fits_one_iff]
    constructor
    · rintro ⟨c, hc, rest, hrest, rfl⟩
      exact ⟨[c], rest, hrest, rfl, c, hc, rfl⟩
    · rintro ⟨m, rest, hrest, rfl, c, hc, rfl⟩
      exact ⟨c, hc, rest, hrest, rfl⟩
  | look holds =>
    simp only [ends, fits_look_iff]
    constructor
    · intro h
      split at h
      · rename_i hholds
        rw [List.mem_singleton] at h
        exact ⟨[], s.rest, rfl, h, rfl, hholds⟩
      · exact absurd h (List.not_mem_nil)
    · rintro ⟨m, rest, hrest, rfl, rfl, hholds⟩
      rw [List.nil_append] at hrest
      subst hrest
      simp [hholds]
  | seq p q ihp ihq =>
    simp only [ends, List.mem_flatMap, ihp, ihq, fits_seq_iff]
    constructor
    · rintro ⟨u, ⟨m, rest, hrest, rfl, hm⟩, n, rest', hrest', rfl, hn⟩
      simp only [Spot.after_rest] at hrest'
      rw [hrest', List.head?_append] at hm
      exact ⟨m ++ n, rest', by rw [hrest, hrest', List.append_assoc], by simp, m, n, rfl, hm, hn⟩
    · rintro ⟨_, rest, hrest, rfl, m, n, rfl, hm, hn⟩
      refine ⟨s.after m (n ++ rest), ⟨m, n ++ rest, ?_, rfl, ?_⟩, n, rest, rfl, by simp, hn⟩
      · rw [hrest, List.append_assoc]
      · rwa [List.head?_append]
  | alt p q ihp ihq =>
    simp only [ends, List.mem_append, ihp, ihq, fits_alt_iff]
    constructor
    · rintro (⟨m, rest, hrest, ht, hm⟩ | ⟨m, rest, hrest, ht, hm⟩)
      · exact ⟨m, rest, hrest, ht, .inl hm⟩
      · exact ⟨m, rest, hrest, ht, .inr hm⟩
    · rintro ⟨m, rest, hrest, ht, hm | hm⟩
      · exact .inl ⟨m, rest, hrest, ht, hm⟩
      · exact .inr ⟨m, rest, hrest, ht, hm⟩
  | repeated greedy p ih => exact mem_iterate_iff (fun s t => ih) (Nat.le_refl _)

end Pattern

end Reflow
