import Reflow.Proofs.Break.Filled

/-!
# Words with single spaces between them

A text of words with one space between any two (`SingleSpaced`) is broken into lines of the same kind.  Its filled
lines are those for a narrower width just if each of them keeps to that width or is one word: a line that is not too
wide for the narrower width ends there in the same place (`fill_eq_fill_iff`).
-/

namespace Reflow.Break

variable {t line rest : Text} {ls : List Text} {narrow width : Nat}

/-- Words with one space between any two, and no space around them. -/
def SingleSpaced (t : Text) : Prop :=
  [] ∉ Text.splitOn ' ' t

instance (t : Text) : Decidable (SingleSpaced t) :=
  inferInstanceAs (Decidable (_ ∉ _))

theorem singleSpaced_append_iff : SingleSpaced (line ++ ' ' :: rest) ↔ SingleSpaced line ∧ SingleSpaced rest := by
  rw [SingleSpaced, Text.splitOn, Text.split_append (by simp), List.mem_append, not_or]
  exact Iff.rfl

theorem singleSpaced_join (hne : ls ≠ []) (hls : ∀ line ∈ ls, SingleSpaced line) : SingleSpaced (Text.join ' ' ls) := by
  induction ls with
  | nil => exact absurd rfl hne
  | cons line ls ih =>
    obtain ⟨hline, hls⟩ := List.forall_mem_cons.mp hls
    rcases eq_or_ne ls [] with rfl | hne'
    · rwa [Text.join_singleton]
    · rw [Text.join_cons hne']
      exact singleSpaced_append_iff.mpr ⟨hline, ih hne' hls⟩

namespace SingleSpaced

theorem ne_nil_of_mem (h : SingleSpaced t) : ∀ word ∈ Text.splitOn ' ' t, word ≠ [] ∧ ' ' ∉ word :=
  fun _ hword => ⟨fun hnil => h (hnil ▸ hword),
    fun hspace => absurd (Text.not_sep_of_mem_split hword ' ' hspace) (by decide)⟩

theorem ends (h : SingleSpaced t) : t ≠ [] ∧ t.getLast? ≠ some ' ' := by
  obtain ⟨hne, hend, -⟩ := join_of_words (Text.split_ne_nil _ t) h.ne_nil_of_mem
  rw [← Text.splitOn, Text.join_splitOn] at hne hend
  exact ⟨hne, hend⟩

theorem not_head?_space (h : SingleSpaced (' ' :: t)) : False := by
  apply h
  rw [Text.splitOn, Text.split_cons_of_sep (by simp)]
  exact List.mem_cons_self

theorem of_isInfix {part : Text} (h : SingleSpaced t) (hpart : part <:+: t) (hne : part ≠ [])
    (hstart : part.head? ≠ some ' ') (hend : part.getLast? ≠ some ' ') : SingleSpaced part := by
  intro hmem
  obtain ⟨x, y, rfl⟩ := (infix_of_nil_mem_splitOn hne hstart hend hmem).trans hpart
  have hsplit : x ++ [' ', ' '] ++ y = x ++ ' ' :: ' ' :: y := by simp
  rw [hsplit] at h
  exact (singleSpaced_append_iff.mp h).2.not_head?_space

theorem of_breaks (h : SingleSpaced t) (hls : Breaks t ls) : ∀ line ∈ ls, SingleSpaced line := by
  induction hls with
  | last line =>
    intro line' hline
    rwa [List.mem_singleton.mp hline]
  | skip hls ih => exact h.not_head?_space.elim
  | cons line hls ih =>
    obtain ⟨hline, hrest⟩ := singleSpaced_append_iff.mp h
    exact List.forall_mem_cons.mpr ⟨hline, ih hrest⟩

theorem of_mem_greedy (h : SingleSpaced t) (hline : line ∈ greedy t width) : SingleSpaced line :=
  h.of_breaks (breaks_fill _ t) line (Text.mem_of_mem_dropTrailingEmpty hline)

theorem spaceWords_eq (h : SingleSpaced t) : spaceWords t = Text.splitOn ' ' t :=
  List.filter_eq_self.mpr fun word hword => by simpa using (h.ne_nil_of_mem word hword).1

theorem length_spaceWords_le_one_iff (h : SingleSpaced t) : (spaceWords t).length ≤ 1 ↔ ' ' ∉ t := by
  constructor
  · intro hle hspace
    obtain ⟨a, b, rfl⟩ := List.append_of_mem hspace
    rw [h.spaceWords_eq, Text.splitOn, Text.split_append (by simp), List.length_append] at hle
    have ha := List.length_pos_of_ne_nil (Text.split_ne_nil (fun c => c = ' ') a)
    have hb := List.length_pos_of_ne_nil (Text.split_ne_nil (fun c => c = ' ') b)
    omega
  · intro hspace
    rw [spaceWords_of_unbroken h.ends.1 hspace]
    exact Nat.le_refl _

end SingleSpaced

/-! ## A narrower width -/

theorem EndsLine.narrower (h : EndsLine width line rest) (hle : narrow ≤ width)
    (hline : line.length ≤ narrow ∨ ' ' ∉ line) : EndsLine narrow line rest := by
  by_cases hfits : line.length ≤ narrow
  · refine .inl ⟨hfits, fun hspace => ?_⟩
    rcases h with ⟨-, hrest⟩ | ⟨hlong, -⟩
    · exact hrest (List.take_subset_take_left _ (by omega) hspace)
    · omega
  · exact .inr ⟨Nat.not_le.mp hfits, hline.resolve_left hfits⟩

/-- The filled lines for a width are those for a narrower one just if each fits in the narrower one or is one word. -/
theorem fill_eq_fill_iff (hle : narrow ≤ width) (h : SingleSpaced t) :
    fill narrow t = fill width t ↔ ∀ line ∈ fill width t, line.length ≤ narrow ∨ ' ' ∉ line := by
  constructor
  · intro heq
    rw [← heq]
    exact fits_or_unbroken_fill narrow t
  · intro hlines
    induction t using fill_induction with
    | whole t hwhole => rw [fill_whole (hlines t (List.mem_singleton_self t))]
    | space t ih => exact h.not_head?_space.elim
    | cut line rest hne hhead hends hlong ih =>
      obtain ⟨hline, hlines⟩ := List.forall_mem_cons.mp hlines
      have hcut := (hends.narrower hle hline).cutLine?
      rw [fill_cut (by omega) (by rwa [List.head?_append_of_ne_nil _ hne]) hcut,
        ih (singleSpaced_append_iff.mp h).2 hlines]

theorem greedy_eq_greedy_iff (hle : narrow ≤ width) (h : SingleSpaced t) :
    greedy t width = greedy t narrow ↔ ∀ line ∈ greedy t width, line.length ≤ max narrow 1 ∨ ' ' ∉ line := by
  obtain ⟨hne, hend⟩ := h.ends
  rw [greedy_eq_fill hne hend, greedy_eq_fill hne hend, eq_comm]
  exact fill_eq_fill_iff (by omega) h

end Reflow.Break
