import Reflow.Proofs.Comment.Leads

/-!
# Lines in their parts

The indent of a line is the longest `Indent` at its start (`Markers.splitLine_eq`).  An indent that
is cut at line breaks falls into indents, so that a line with words is in no stretch without them.
-/

namespace Reflow

theorem Indent.nil : Indent [] := Wordless.nil.indent

theorem Indent.of_mem_split {sep : Char → Bool}
    (hsep : ∀ c, sep c = true → isBlank c = true ∧ c ≠ ' ') {t piece : Text} (h : Indent t)
    (hpiece : piece ∈ Text.split sep t) : Indent piece :=
  IndentOf.of_mem_split (fun hl _ => hl.isLeaderChar) hsep h hpiece

theorem Indent.of_append_breaks {b t : Text} (hb : ∀ c ∈ b, isBreak c = true) (h : Indent (b ++ t)) :
    Indent t :=
  IndentOf.of_append_breaks (fun hl _ => hl.isLeaderChar) hb h

namespace Markers

open Pattern

variable {t m rest : Text}

theorem exists_longest_indent (t : Text) : ∃ m rest, LongestAt code.indent none t m rest :=
  leads_codeLeaders.exists_longest_indent t

theorem longest_indent_iff :
    LongestAt code.indent none t m rest ↔
      t = m ++ rest ∧ Indent m ∧ ∀ n rest', t = n ++ rest' → Indent n → n.length ≤ m.length :=
  leads_codeLeaders.longest_indent_iff

theorem splitLine_eq (h : LongestAt code.indent none t m rest) :
    code.splitLine t =
      ⟨m.filter fun c => !isBreak c, (listSymbol? t).getD [], Text.strip isControl rest⟩ :=
  leads_codeLeaders.splitLine_eq h

theorem rest_of_indent (h : Indent t) : (code.splitLine t).rest = [] :=
  leads_codeLeaders.rest_of_indent h

theorem isBare_of_indent (h : Indent t) : code.isBare t = true :=
  leads_codeLeaders.isBare_of_indent h

theorem exists_rest_eq (t : Text) : ∃ m r, t = m ++ r ∧ (code.splitLine t).rest = Text.strip isControl r :=
  leads_codeLeaders.exists_rest_eq t

theorem head?_rest {t : Text} : ∀ c ∈ (code.splitLine t).rest.head?, isControl c = false := by
  obtain ⟨-, r, -, hr⟩ := exists_rest_eq t
  rw [hr]
  exact Text.head?_strip

theorem getLast?_rest {t : Text} :
    ∀ c ∈ (code.splitLine t).rest.getLast?, isControl c = false := by
  obtain ⟨-, r, -, hr⟩ := exists_rest_eq t
  rw [hr]
  exact Text.getLast?_strip

theorem rest_isInfix {q t : Text} (h : Indent q) : (code.splitLine (q ++ t)).rest <:+: t := by
  obtain ⟨m, r, hlongest⟩ := exists_longest_indent (q ++ t)
  obtain ⟨hsplit, -, hle⟩ := longest_indent_iff.mp hlongest
  obtain ⟨e, rfl⟩ : ∃ e, t = e ++ r := by
    have hlen := hle q t rfl h
    rcases List.append_eq_append_iff.mp hsplit with ⟨e, -, he⟩ | ⟨e, he, hr⟩
    · exact ⟨e, he⟩
    · have := congrArg List.length he
      rw [List.length_append] at this
      rw [List.eq_nil_of_length_eq_zero (l := e) (by omega)] at hr
      exact ⟨[], hr.symm⟩
  obtain ⟨a, b, hr, -, -⟩ := Text.exists_strip isControl r
  rw [splitLine_eq hlongest]
  exact ⟨e ++ a, b, by simp [← hr]⟩

theorem forall₂_rest {q : Text} (h : Indent q) (ts : List Text) :
    List.Forall₂ (fun r t => r <:+: t)
      ((ts.map fun t => q ++ t).map fun line => (code.splitLine line).rest) ts := by
  induction ts with
  | nil => exact .nil
  | cons t ts ih => exact .cons (rest_isInfix h) ih

theorem indent_splitLine_of_longest (h : LongestAt code.indent none t m rest) (hbreak : ∀ c ∈ t, isBreak c = false) :
    (code.splitLine t).indent = m :=
  congrArg Line.indent (leads_codeLeaders.splitLine_of_longest h hbreak)

theorem indent_splitLine {line : Text} (h : ∀ c ∈ line, isBreak c = false) :
    Indent (code.splitLine line).indent := by
  obtain ⟨m, r, hlongest⟩ := exists_longest_indent line
  rw [indent_splitLine_of_longest hlongest h]
  exact (longest_indent_iff.mp hlongest).2.1

/-- The indent of a text is that of its first line with words, if only line breaks come before that. -/
theorem indent_splitLine_eq {b line rest : Text} (hb : ∀ c ∈ b, isBreak c = true) (hline : ¬Indent line)
    (hrest : ∀ c ∈ rest.head?, isBreak c = true) :
    (code.splitLine (b ++ (line ++ rest))).indent = (code.splitLine line).indent := by
  obtain ⟨m, r, hlongest⟩ := exists_longest_indent line
  obtain ⟨rfl, hindent, hle⟩ := longest_indent_iff.mp hlongest
  have hfiller : b.all isFiller = true :=
    List.all_eq_true.mpr fun c hc => isFiller_of_isBlank (isBlank_of_isBreak (hb c hc))
  have hlongest' : LongestAt code.indent none (b ++ (m ++ r ++ rest)) (b ++ m) (r ++ rest) := by
    refine longest_indent_iff.mpr ⟨by simp, .append hfiller hindent, ?_⟩
    intro n rest' hn hindent'
    by_contra hlt
    rw [Nat.not_le, List.length_append] at hlt
    obtain ⟨n', rfl, htail⟩ : ∃ n', n = b ++ n' ∧ m ++ r ++ rest = n' ++ rest' := by
      rcases List.append_eq_append_iff.mp hn with ⟨e, he, h⟩ | ⟨e, he, -⟩
      · exact ⟨e, he, h⟩
      · rw [he, List.length_append] at hlt
        omega
    have hindent' := hindent'.of_append_breaks hb
    rw [List.length_append] at hlt
    rcases List.append_eq_append_iff.mp htail with ⟨e, rfl, rfl⟩ | ⟨e, he, -⟩
    · cases e with
      | nil =>
        have := hle _ [] (List.append_nil _).symm (by rwa [List.append_nil] at hindent')
        simp only [List.length_append, List.length_nil] at hlt this
        omega
      | cons c e =>
        -- the line would be an indent
        obtain ⟨hblank, hspace⟩ := isBlank_of_isBreak_ne (hrest c rfl)
        exact hline (hindent'.split hblank hspace).1
    · have := hle n' e he hindent'
      omega
  have hfilter : b.filter (fun c => !isBreak c) = [] :=
    List.filter_eq_nil_iff.mpr fun c hc => by simp [hb c hc]
  rw [splitLine_eq hlongest', splitLine_eq hlongest, List.filter_append, hfilter, List.nil_append]

end Markers

theorem exists_word_of_not_isBare {markers : Markers} {line : Text} (h : markers.isBare line = false) :
    ∃ c ∈ (markers.splitLine line).rest, isBlank c = false := by
  rw [Markers.isBare, List.all_eq_false] at h
  simpa using h

theorem not_indent_of_not_isBare {line : Text} (h : Markers.code.isBare line = false) : ¬Indent line := by
  intro hindent
  rw [Markers.isBare_of_indent hindent] at h
  cases h

end Reflow
