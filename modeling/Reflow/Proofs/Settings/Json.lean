import Mathlib
import Reflow.Proofs.Text.Numeral
import Reflow.Settings.Format

/-!
# Reading what was printed

A number is read back from its digits (`Json.number?_toDigits`), and a text from its characters, whichever of
them are escaped (`Json.string?_printed`).  A value in a line of its own is read up to the end of the line
(`Json.Prints`), and so is a member of an object (`Json.members?_cons`, `Json.members?_last`).
-/

namespace Reflow

namespace Json

variable {t u v : Text} {c : Char} {n : Nat}

/-! ## Numbers -/

theorem head?_toDigits_ne (hn : 0 < n) : (Nat.toDigits 10 n).head? ≠ some '0' := by
  induction n using Nat.strong_induction_on with
  | _ n ih =>
    rw [Nat.toDigits_eq_if (by decide)]
    split
    next hlt =>
      rw [List.head?_cons, ne_eq, Option.some.injEq, Nat.digitChar_eq_zero]
      exact hn.ne'
    next hge =>
      rw [List.head?_append_of_ne_nil _ Nat.toDigits_ne_nil]
      exact ih (n / 10) (by omega) (by omega)

theorem digits_append (ht : ∀ d ∈ t, d.isDigit = true) (hc : c.isDigit = false) (u : Text) :
    digits (t ++ c :: u) = (t, c :: u) := by
  have hstop : ¬c.isDigit = true := by simp [hc]
  rw [digits, List.takeWhile_append_of_pos ht, List.dropWhile_append_of_pos ht, List.takeWhile_cons_of_neg hstop,
    List.dropWhile_cons_of_neg hstop, List.append_nil]

/-- A character that ends a line with a value: the comma after it, or the line feed. -/
def EndsValue (c : Char) : Prop :=
  c = ',' ∨ c = '\n'

theorem fraction?_of_endsValue (hc : EndsValue c) (t : Text) : fraction? (c :: t) = some (false, c :: t) := by
  rcases hc with rfl | rfl <;> rfl

theorem number?_toDigits (n : Nat) (hc : EndsValue c) (t : Text) :
    number? (Nat.toDigits 10 n ++ c :: t) = some (natural n, c :: t) := by
  have hstop : c.isDigit = false := by rcases hc with rfl | rfl <;> rfl
  have hdigits := digits_append (fun d hd => Numeral.isDigit_of_mem_toDigits (n := n) hd) hstop t
  have hread : Numeral.digits? 0 (Nat.toDigits 10 n) = some n := by
    rw [Numeral.digits?_eq_ofDigitChars (fun d hd => Numeral.isDigit_of_mem_toDigits hd), Nat.ofDigitChars_ten_toDigits]
  have hzero : ((Nat.toDigits 10 n).isEmpty ||
      ((Nat.toDigits 10 n).head? = some '0' && 1 < (Nat.toDigits 10 n).length)) = false := by
    rcases Nat.eq_zero_or_pos n with rfl | hn
    · rfl
    · simp [head?_toDigits_ne hn]
  obtain ⟨d, w, hw⟩ := List.exists_cons_of_ne_nil (Nat.toDigits_ne_nil (n := n) (b := 10))
  have hd : d ≠ '-' := by
    rintro rfl
    exact absurd (Numeral.isDigit_of_mem_toDigits (n := n) (c := '-') (by simp [hw])) (by decide)
  unfold number?
  split
  next negative rest hsign =>
    obtain ⟨rfl, rfl⟩ : false = negative ∧ Nat.toDigits 10 n ++ c :: t = rest := by
      rw [hw, List.cons_append] at hsign ⊢
      split at hsign
      next heq => exact absurd (List.cons.inj heq).1 hd
      next => exact Prod.mk.inj hsign
    rw [hdigits]
    simp only [hzero, hread, fraction?_of_endsValue hc]
    rfl

/-! ## Strings -/

theorem hex4?_control (hn : n < 32) (t : Text) :
    hex4? ('0' :: '0' :: Nat.digitChar (n / 16) :: Nat.digitChar (n % 16) :: t) = some (n, t) := by
  interval_cases n <;> rfl

theorem stringFrom?_escape (c : Char) (n : Nat) (read : Option Text) (t : Text) :
    stringFrom? (n + 1) read (escape c ++ t) = stringFrom? n (read.map (c :: ·)) t := by
  unfold escape
  split
  case h_8 hquote hback _ _ _ _ _ =>
    split
    next hcontrol =>
      have hlt : c.toNat < 32 := hcontrol
      have hcode : (c.toNat < 0xD800 || 0xDFFF < c.toNat) = true := by
        rw [Bool.or_eq_true, decide_eq_true_eq]
        exact .inl (by omega)
      show stringFrom? (n + 1) read ('\\' :: 'u' :: '0' :: '0' :: Nat.digitChar (c.toNat / 16) ::
        Nat.digitChar (c.toNat % 16) :: t) = _
      rw [stringFrom?, hex4?_control hlt]
      simp only [bind, Option.bind]
      rw [if_pos hcode, Char.ofNat_toNat]
    next hcontrol =>
      rw [List.singleton_append, stringFrom?, if_neg hcontrol]
      · exact hquote
      · intro u hc
        exact absurd hc hback
      · intro d u hc
        exact absurd hc hback
  -- Each of the other characters has a letter of its own.
  all_goals rfl

theorem stringFrom?_printed (u : Text) {n : Nat} (hn : u.length < n) (read t : Text) :
    stringFrom? n (some read) (u.flatMap escape ++ '"' :: t) = some (some (read.reverse ++ u), t) := by
  induction u generalizing n read with
  | nil =>
    obtain ⟨n, rfl⟩ : ∃ m, n = m + 1 := Nat.exists_eq_add_one.mpr hn
    rw [List.append_nil]
    rfl
  | cons c u ih =>
    rw [List.length_cons] at hn
    obtain ⟨n, rfl⟩ : ∃ m, n = m + 1 := Nat.exists_eq_add_one.mpr (by omega)
    rw [List.flatMap_cons, List.append_assoc, stringFrom?_escape, Option.map_some, ih (by omega),
      List.reverse_cons, List.append_assoc, List.singleton_append]

theorem escape_ne_nil (c : Char) : escape c ≠ [] := by
  unfold escape
  split
  case h_8 => split <;> exact List.cons_ne_nil _ _
  all_goals exact List.cons_ne_nil _ _

theorem length_le_length_printed (u : Text) : u.length ≤ (u.flatMap escape).length := by
  induction u with
  | nil => exact Nat.le_refl _
  | cons c u ih =>
    have hc := List.length_pos_iff.mpr (escape_ne_nil c)
    rw [List.flatMap_cons, List.length_append, List.length_cons]
    omega

theorem string?_printed (u t : Text) : string? (u.flatMap escape ++ '"' :: t) = some (some u, t) := by
  refine stringFrom?_printed u ?_ [] t
  have h := length_le_length_printed u
  rw [List.length_append]
  omega

theorem printString_append (u t : Text) : printString u ++ t = '"' :: (u.flatMap escape ++ '"' :: t) := by
  simp [printString]

/-! ## Values -/

theorem dropSpace_of_not (hc : isSpace c = false) (t : Text) : dropSpace (c :: t) = c :: t :=
  List.dropWhile_cons_of_neg (by simp [hc])

theorem value?_space (n : Nat) (t : Text) : value? n (' ' :: t) = value? n t := by
  cases n with
  | zero => rfl
  | succ n => rfl

/-- The text of a value that stands at the end of a line is read as the value. -/
def Prints (v : Text) (j : Json) : Prop :=
  ∀ n c t, EndsValue c → value? (n + 1) (v ++ c :: t) = some (j, c :: t)

theorem prints_null : Prints "null".toList null :=
  fun _ _ _ _ => rfl

theorem prints_bool (b : Bool) : Prints (if b then "true".toList else "false".toList) (bool b) := by
  intro n c t _
  cases b <;> rfl

theorem prints_string (u : Text) : Prints (printString u) (string (some u)) := by
  intro n c t _
  rw [printString_append]
  show (string? (u.flatMap escape ++ '"' :: c :: t)).map _ = _
  rw [string?_printed]
  rfl

theorem prints_natural (k : Nat) : Prints (Nat.toDigits 10 k) (natural k) := by
  intro n c t hc
  obtain ⟨d, w, hw⟩ := List.exists_cons_of_ne_nil (Nat.toDigits_ne_nil (n := k) (b := 10))
  have hd : d.isDigit = true := Numeral.isDigit_of_mem_toDigits (n := k) (by simp [hw])
  have hne {e : Char} (he : e.isDigit = false) : d ≠ e := by
    rintro rfl
    cases hd.symm.trans he
  have hspace : isSpace d = false := by
    simp [isSpace, hne (e := ' ') rfl, hne (e := '\n') rfl, hne (e := '\t') rfl, hne (e := '\r') rfl]
  rw [← number?_toDigits k hc t, hw, List.cons_append, value?, dropSpace_of_not hspace]
  split
  case h_7 => rfl
  -- A digit begins no other value.
  all_goals next heq => exact absurd (List.cons.inj heq).1 (hne rfl)

/-! ## Objects -/

/-- A member of an object, in a line of its own. -/
def printMember (name v : Text) : Text :=
  "\n  ".toList ++ printString name ++ ": ".toList ++ v

variable {j : Json}

theorem dropSpace_printMember (name v t : Text) : dropSpace (printMember name v ++ t) =
    '"' :: (name.flatMap escape ++ '"' :: ':' :: ' ' :: (v ++ t)) := by
  simp only [printMember, List.append_assoc, List.cons_append, printString_append]
  rfl

theorem after?_colon (t : Text) : Text.after? [':'] (dropSpace (':' :: t)) = some t :=
  rfl

theorem members?_cons (hv : Prints v j) (n : Nat) (name t : Text) :
    members? (n + 2) (printMember name v ++ ',' :: t) =
      (members? (n + 1) t).map fun found => ((some name, j) :: found.1, found.2) := by
  rw [members?, dropSpace_printMember]
  simp only [string?_printed, after?_colon, bind, Option.bind, value?_space, hv n ',' t (.inl rfl),
    dropSpace_of_not (c := ',') rfl]
  cases members? (n + 1) t <;> rfl

theorem members?_last (hv : Prints v j) (n : Nat) (name t : Text) :
    members? (n + 2) (printMember name v ++ '\n' :: '\x7d' :: t) = some ([(some name, j)], t) := by
  rw [members?, dropSpace_printMember]
  simp only [string?_printed, after?_colon, bind, Option.bind, value?_space, hv n '\n' _ (.inr rfl)]
  rfl

theorem members?_dropSpace (n : Nat) (t : Text) : members? n (dropSpace t) = members? n t := by
  cases n with
  | zero => rfl
  | succ n =>
    have hidempotent : dropSpace (dropSpace t) = dropSpace t := List.dropWhile_idempotent _ t
    rw [members?, members?, hidempotent]

theorem value?_object (n : Nat) (name v t : Text) :
    value? (n + 1) ('\x7b' :: (printMember name v ++ t)) =
      (members? n (printMember name v ++ t)).map fun found => (object found.1, found.2) := by
  rw [value?, ← members?_dropSpace n (printMember name v ++ t)]
  simp only [dropSpace_of_not (c := '\x7b') rfl, dropSpace_printMember]
  rfl

end Json

end Reflow
