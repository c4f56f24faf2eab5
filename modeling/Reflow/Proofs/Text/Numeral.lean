import Reflow.Proofs.Text.Strip
import Reflow.Text.Numeral

/-!
# Numerals

A text is read as a number if and only if it is a numeral of that number: one or more digits, perhaps after a plus
sign, with a value that fits in a word (`Numeral.read?_eq_some_iff`).
-/

namespace Reflow.Numeral

variable {t : Text} {c : Char} {n m : Nat}

/-- An optional plus sign and one or more ASCII digits, with the value of the digits. -/
def Spells (t : Text) (n : Nat) : Prop :=
  ∃ sign digits, t = sign ++ digits ∧ (sign = [] ∨ sign = ['+']) ∧ digits ≠ [] ∧
    (∀ c ∈ digits, c.isDigit = true) ∧ Nat.ofDigitChars 10 digits 0 = n

/-! ## Digits -/

theorem digit?_of_isDigit (h : c.isDigit = true) : digit? c = some (c.toNat - '0'.toNat) := by
  rw [Char.isDigit, Bool.and_eq_true, decide_eq_true_eq, decide_eq_true_eq] at h
  exact if_pos h

theorem isDigit_of_digit? (h : digit? c = some n) : c.isDigit = true := by
  unfold digit? at h
  split at h
  next hc =>
    rw [Char.isDigit, Bool.and_eq_true, decide_eq_true_eq, decide_eq_true_eq]
    exact hc
  next => cases h

theorem digits?_eq_ofDigitChars (h : ∀ c ∈ t, c.isDigit = true) (n : Nat) :
    digits? n t = some (Nat.ofDigitChars 10 t n) := by
  induction t generalizing n with
  | nil => rfl
  | cons c t ih =>
    rw [List.forall_mem_cons] at h
    rw [digits?, digit?_of_isDigit h.1, Nat.ofDigitChars_cons, ← ih h.2]
    rfl

theorem isDigit_of_digits? (h : digits? n t = some m) : ∀ c ∈ t, c.isDigit = true := by
  induction t generalizing n with
  | nil => exact fun c hc => absurd hc List.not_mem_nil
  | cons c t ih =>
    obtain ⟨d, hd, hrest⟩ := Option.bind_eq_some_iff.mp h
    exact List.forall_mem_cons.mpr ⟨isDigit_of_digit? hd, ih hrest⟩

theorem digits?_eq_some_iff :
    digits? n t = some m ↔ (∀ c ∈ t, c.isDigit = true) ∧ Nat.ofDigitChars 10 t n = m := by
  constructor
  · intro h
    have hdigits := isDigit_of_digits? h
    rw [digits?_eq_ofDigitChars hdigits, Option.some.injEq] at h
    exact ⟨hdigits, h⟩
  · rintro ⟨hdigits, rfl⟩
    exact digits?_eq_ofDigitChars hdigits n

/-! ## Numbers -/

theorem exists_sign (t : Text) : ∃ sign, t = sign ++ (Text.after? ['+'] t).getD t ∧ (sign = [] ∨ sign = ['+']) := by
  cases h : Text.after? ['+'] t with
  | none => exact ⟨[], rfl, .inl rfl⟩
  | some rest => exact ⟨['+'], Text.eq_of_after? h, .inr rfl⟩

theorem getD_after?_sign {sign digits : Text} (hsign : sign = [] ∨ sign = ['+'])
    (hdigits : ∀ c ∈ digits, c.isDigit = true) :
    (Text.after? ['+'] (sign ++ digits)).getD (sign ++ digits) = digits := by
  rcases hsign with rfl | rfl
  · cases digits with
    | nil => rfl
    | cons c digits =>
      have hc : c ≠ '+' := by
        rintro rfl
        exact absurd (hdigits '+' List.mem_cons_self) (by decide)
      have hprefix : ¬['+'].isPrefixOf (c :: digits) = true := by simp [List.isPrefixOf, hc.symm]
      rw [List.nil_append, Text.after?, if_neg hprefix]
      rfl
  · simp [Text.after?, List.isPrefixOf]

theorem read?_eq_some_iff : read? t = some n ↔ Spells t n ∧ n < wordBound := by
  have hread (body : Text) : (do
      let n ← if body.isEmpty then none else digits? 0 body
      if n < wordBound then some n else none) = some n ↔
      body ≠ [] ∧ (∀ c ∈ body, c.isDigit = true) ∧ Nat.ofDigitChars 10 body 0 = n ∧ n < wordBound := by
    cases body with
    | nil => simp
    | cons c body =>
      rw [List.isEmpty_cons, if_neg Bool.false_ne_true, Option.bind_eq_bind, Option.bind_eq_some_iff]
      simp only [digits?_eq_some_iff, Option.ite_none_right_eq_some, Option.some.injEq]
      constructor
      · rintro ⟨m, ⟨hdigits, hvalue⟩, hlt, rfl⟩
        exact ⟨List.cons_ne_nil _ _, hdigits, hvalue, hlt⟩
      · rintro ⟨-, hdigits, hvalue, hlt⟩
        exact ⟨n, ⟨hdigits, hvalue⟩, hlt, rfl⟩
  rw [read?, hread]
  constructor
  · rintro ⟨hne, hdigits, hvalue, hlt⟩
    obtain ⟨sign, ht, hsign⟩ := exists_sign t
    exact ⟨⟨sign, _, ht, hsign, hne, hdigits, hvalue⟩, hlt⟩
  · rintro ⟨⟨sign, digits, rfl, hsign, hne, hdigits, hvalue⟩, hlt⟩
    rw [getD_after?_sign hsign hdigits]
    exact ⟨hne, hdigits, hvalue, hlt⟩

/-! ## Printed numbers -/

theorem isDigit_of_mem_toDigits (h : c ∈ Nat.toDigits 10 n) : c.isDigit = true :=
  Nat.isDigit_of_mem_toDigits (by decide) (by decide) h

theorem spells_toDigits (n : Nat) : Spells (Nat.toDigits 10 n) n :=
  ⟨[], _, rfl, .inl rfl, Nat.toDigits_ne_nil, fun _ => isDigit_of_mem_toDigits, Nat.ofDigitChars_ten_toDigits⟩

theorem Spells.mem_cases (h : Spells t n) (hc : c ∈ t) : c = '+' ∨ c.isDigit = true := by
  obtain ⟨sign, digits, rfl, hsign, -, hdigits, -⟩ := h
  rcases List.mem_append.mp hc with hc | hc
  · rcases hsign with rfl | rfl
    · exact absurd hc List.not_mem_nil
    · exact .inl (List.mem_singleton.mp hc)
  · exact .inr (hdigits c hc)

end Reflow.Numeral
