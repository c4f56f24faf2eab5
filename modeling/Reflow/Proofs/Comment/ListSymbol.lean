import Reflow.Comment.Indent
import Reflow.Proofs.Comment.Wordless

/-!
# List symbols

A list symbol is a bullet with the white space around it, all of it (`exists_of_listSymbol?`).  No
character of the bullet is white space.
-/

namespace Reflow

/-- A star, a dash, or digits and a dot. -/
inductive Bullet : Text → Prop
  | star : Bullet ['*']
  | dash : Bullet ['-']
  | number {digits : Text} (hne : digits ≠ []) (hdigits : digits.all isDigit = true) : Bullet (digits ++ ['.'])

/-- Nothing but a list symbol. -/
def IsLoneSymbol (t : Text) : Prop :=
  listSymbol? t = some t

instance (t : Text) : Decidable (IsLoneSymbol t) :=
  inferInstanceAs (Decidable (_ = _))

variable {t b symbol : Text} {c : Char}

/-! ## The characters of a bullet -/

theorem not_inRanges_of_inRanges {ranges ranges' : List (Nat × Nat)}
    (h : ∀ r ∈ ranges, ∀ r' ∈ ranges', r.2 < r'.1 ∨ r'.2 < r.1) (hc : inRanges ranges c = true) :
    inRanges ranges' c = false := by
  obtain ⟨r, hr, hle⟩ := List.any_eq_true.mp hc
  apply List.any_eq_false.mpr
  intro r' hr'
  simp only [Bool.and_eq_true, decide_eq_true_eq] at hle ⊢
  have := h r hr r' hr'
  omega

theorem not_isBlank_of_isDigit (h : isDigit c = true) : isBlank c = false :=
  not_inRanges_of_inRanges (by decide) h

theorem ne_of_isDigit {d : Char} (h : isDigit c = true) (hd : isDigit d = false) : c ≠ d := by
  rintro rfl
  rw [h] at hd
  cases hd

theorem not_isControl_of_isDigit (h : isDigit c = true) : isControl c = false := by
  have hrange : inRanges [(0, 32)] c = false := not_inRanges_of_inRanges (by decide) h
  have hlt : 32 < c.toNat := by simpa [inRanges] using hrange
  rw [isControl, decide_eq_false_iff_not]
  exact fun hle => absurd (UInt32.le_iff_toNat_le.mp hle) (Nat.not_le.mpr hlt)

theorem Bullet.ne_nil (h : Bullet b) : b ≠ [] := by
  cases h with
  | star => exact List.cons_ne_nil _ _
  | dash => exact List.cons_ne_nil _ _
  | number hne hdigits => exact fun hnil => hne (List.append_eq_nil_iff.mp hnil).1

theorem Bullet.mem_cases (h : Bullet b) (hc : c ∈ b) : c = '*' ∨ c = '-' ∨ c = '.' ∨ isDigit c = true := by
  cases h with
  | star => exact .inl (List.mem_singleton.mp hc)
  | dash => exact .inr (.inl (List.mem_singleton.mp hc))
  | number hne hdigits =>
    rcases List.mem_append.mp hc with hc | hc
    · exact .inr (.inr (.inr (List.all_eq_true.mp hdigits c hc)))
    · exact .inr (.inr (.inl (List.mem_singleton.mp hc)))

theorem Bullet.not_isFiller (h : Bullet b) : ∀ c ∈ b, isFiller c = false := by
  intro c hc
  rcases h.mem_cases hc with rfl | rfl | rfl | hdigit
  · decide
  · decide
  · decide
  · rw [isFiller, not_isBlank_of_isDigit hdigit, decide_eq_false (ne_of_isDigit hdigit (by decide))]
    rfl

theorem Bullet.not_isBlank (h : Bullet b) : ∀ c ∈ b, isBlank c = false :=
  fun c hc => not_isBlank_of_not_isFiller (h.not_isFiller c hc)

theorem Bullet.not_isControl (h : Bullet b) : ∀ c ∈ b, isControl c = false := by
  intro c hc
  rcases h.mem_cases hc with rfl | rfl | rfl | hdigit
  · decide
  · decide
  · decide
  · exact not_isControl_of_isDigit hdigit

theorem Bullet.not_isTagChar (h : Bullet b) : ∀ c ∈ b, isTagChar c = false := by
  intro c hc
  rcases h.mem_cases hc with rfl | rfl | rfl | hdigit
  · decide
  · decide
  · decide
  · rw [isTagChar, List.contains_eq_any_beq, List.any_eq_false]
    intro d hd
    have hdigits : (['<', '>', '/', ' ', 'p', 'P', 'b', 'B', 'r', 'R'].all fun d => !isDigit d) = true := by decide
    rw [beq_iff_eq]
    exact ne_of_isDigit hdigit (by simpa using List.all_eq_true.mp hdigits d hd)

/-! ## Reading a list symbol -/

theorem bullet?_append (h : Bullet b) (rest : Text) : bullet? (b ++ rest) = some b := by
  cases h with
  | star => rfl
  | dash => rfl
  | @number digits hne hdigits =>
    have hstop : (digits ++ ['.'] ++ rest).takeWhile isDigit = digits := by
      rw [List.append_assoc, List.takeWhile_append_of_pos (List.all_eq_true.mp hdigits)]
      exact List.append_nil digits
    have hdrop : (digits ++ ['.'] ++ rest).drop digits.length = '.' :: rest := by
      rw [List.append_assoc, List.drop_left]
      rfl
    obtain ⟨d, digits, rfl⟩ := List.exists_cons_of_ne_nil hne
    have hd : isDigit d = true := List.all_eq_true.mp hdigits d List.mem_cons_self
    unfold bullet?
    split
    · rename_i heq
      rw [(List.cons.inj heq).1] at hd
      cases hd
    · rename_i heq
      rw [(List.cons.inj heq).1] at hd
      cases hd
    · simp only [hstop, hdrop]

theorem bullet_of_bullet? (h : bullet? t = some b) : Bullet b ∧ ∃ rest, t = b ++ rest := by
  unfold bullet? at h
  split at h
  · rw [← Option.some.inj h]
    exact ⟨.star, _, rfl⟩
  · rw [← Option.some.inj h]
    exact ⟨.dash, _, rfl⟩
  · simp only at h
    split at h
    · cases h
    · rename_i rest hdrop hne
      rw [← Option.some.inj h]
      refine ⟨.number hne List.all_takeWhile, rest, ?_⟩
      have hsplit := List.prefix_iff_eq_append.mp (List.takeWhile_prefix isDigit (l := t))
      rw [List.append_assoc, List.singleton_append, ← hdrop]
      exact hsplit.symm
    · cases h

/-- A list symbol is a bullet between white space, of which there is some after it and all belongs to it. -/
theorem exists_of_listSymbol? (h : listSymbol? t = some symbol) :
    ∃ a b c rest, symbol = a ++ (b ++ c) ∧ t = symbol ++ rest ∧ Blank a ∧ Bullet b ∧ Blank c ∧ c ≠ [] ∧
      ∀ d ∈ rest.head?, isBlank d = false := by
  unfold listSymbol? at h
  simp only [Option.bind_eq_bind, Option.bind_eq_some_iff] at h
  obtain ⟨b, hb, h⟩ := h
  obtain ⟨hbullet, r, hr⟩ := bullet_of_bullet? hb
  have hblanks := List.prefix_iff_eq_append.mp (List.takeWhile_prefix isBlank (l := t))
  have hdrop : t.drop ((t.takeWhile isBlank).length + b.length) = r := by
    rw [← List.drop_drop, hr, List.drop_left]
  rw [hdrop] at h
  split at h
  · cases h
  · rename_i hne
    refine ⟨t.takeWhile isBlank, b, r.takeWhile isBlank, r.dropWhile isBlank, ?_, ?_, List.all_takeWhile, hbullet,
      List.all_takeWhile, by simpa using hne, ?_⟩
    · rw [← Option.some.inj h, List.append_assoc]
    · rw [← Option.some.inj h, List.append_assoc, List.append_assoc, List.takeWhile_append_dropWhile, ← hr]
      exact hblanks.symm
    · intro d hd
      have := List.head?_dropWhile_not isBlank r
      rw [hd] at this
      simpa using this

theorem listSymbol?_append {a c r : Text} (ha : Blank a) (hb : Bullet b) (hc : Blank c) (hne : c ≠ [])
    (hr : ∀ d ∈ r.head?, isBlank d = false) : listSymbol? (a ++ (b ++ c) ++ r) = some (a ++ (b ++ c)) := by
  have hhead : ∀ x : Text, (b ++ x).takeWhile isBlank = [] := by
    intro x
    obtain ⟨d, b', rfl⟩ := List.exists_cons_of_ne_nil hb.ne_nil
    exact List.takeWhile_cons_of_neg (by simp [hb.not_isBlank d List.mem_cons_self])
  have hstop : r.takeWhile isBlank = [] := by
    cases r with
    | nil => rfl
    | cons d r => exact List.takeWhile_cons_of_neg (by simp [hr d rfl])
  have hbefore : (a ++ (b ++ c) ++ r).takeWhile isBlank = a := by
    rw [List.append_assoc, List.takeWhile_append_of_pos (List.all_eq_true.mp ha), List.append_assoc, hhead,
      List.append_nil]
  have hafter : (c ++ r).takeWhile isBlank = c := by
    rw [List.takeWhile_append_of_pos (List.all_eq_true.mp hc), hstop, List.append_nil]
  have hdrop : (a ++ (b ++ c) ++ r).drop a.length = b ++ (c ++ r) := by
    rw [List.append_assoc, List.append_assoc, List.drop_left]
  simp only [listSymbol?, hbefore, hdrop, bullet?_append hb, Option.bind_eq_bind, Option.bind_some, ← List.drop_drop,
    List.drop_left, hafter]
  rw [if_neg (by simpa using hne), List.append_assoc]

end Reflow
