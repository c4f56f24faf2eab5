import Reflow.Proofs.Break.Filled
import Reflow.Proofs.Break.Fitting

/-!
# Runs of spaces

A run of several spaces in a text is broken in different ways.  Greedy breaking drops the spaces in front of a line
that it has to cut, so that no line is blank.  Ragged breaking takes a run for empty words, and a line may be made of
empty words alone.  It is put only where the lines around it have no room for its words (`room_around_empty`), and so
never between words that single spaces separate (`blank_lines`).

A best layout puts the words of a row where they are for a reason: moved down to the next row where there is room for
them, or up to the row before, they must make the layout dearer (`raggedness_lt_of_longer`).  Of two layouts that cost
the same, the one with the longer last line wins.  So it is enough that the empty words cost no more elsewhere.
-/

namespace Reflow.Break

variable {width before length length' m : Nat} {t line : Text} {words row prior next more : List Text}
  {front front' back : List (List Text)}

/-- A line that is empty or made of spaces. -/
def BlankLine (line : Text) : Prop :=
  ∀ c ∈ line, c = ' '

instance (line : Text) : Decidable (BlankLine line) :=
  List.decidableBAll _ _

theorem not_blankLine_of_getLast? (hne : t ≠ []) (hend : t.getLast? ≠ some ' ') : ¬BlankLine t := by
  intro hblank
  have hlast := List.getLast?_eq_some_getLast hne
  rw [hblank _ (List.getLast_mem hne)] at hlast
  exact hend hlast

theorem not_blankLine_of_head? (hne : t ≠ []) (hstart : t.head? ≠ some ' ') : ¬BlankLine t := by
  intro hblank
  have hhead := List.head?_eq_some_head hne
  rw [hblank _ (List.head_mem hne)] at hhead
  exact hstart hhead

/-! ## Greedy breaking -/

theorem not_blankLine_fill (hne : t ≠ []) (hend : t.getLast? ≠ some ' ') :
    ∀ line ∈ fill width t, ¬BlankLine line := by
  induction t using fill_induction with
  | whole t h =>
    rw [List.forall_mem_singleton]
    exact not_blankLine_of_getLast? hne hend
  | space t ih =>
    have hrest : t ≠ [] := by
      rintro rfl
      exact hend rfl
    rw [List.getLast?_cons_of_ne_nil hrest] at hend
    exact ih hrest hend
  | cut line rest hline hhead hends hlong ih =>
    have hrest : rest ≠ [] := by
      rintro rfl
      simp at hend
    rw [List.getLast?_append_of_ne_nil _ (List.cons_ne_nil _ _), List.getLast?_cons_of_ne_nil hrest] at hend
    exact List.forall_mem_cons.mpr ⟨not_blankLine_of_head? hline hhead, ih hrest hend⟩

/-! ## Rows that words are moved between -/

theorem lineCost_le_of_fits (h : length ≤ length') (hfits : length' ≤ width) (before : Nat) :
    lineCost width before length' ≤ lineCost width before length := by
  have hslack := Nat.mul_self_le_mul_self (Nat.sub_le_sub_left h width)
  rw [lineCost, if_neg (by omega), lineCost, if_neg (by omega)]
  omega

theorem lineCost_le_of_more {other : Nat} (hother : other ≤ width) (h : length ≤ length') (hfits : length' ≤ width)
    (before : Nat) : lineCost width before length' ≤ lineCost width (lineCost width before other) length := by
  have hlonger := lineCost_le_of_fits h hfits before
  have hmore : lineCost width before length ≤ lineCost width (lineCost width before other) length := by
    rw [lineCost, if_neg (by omega), lineCost, if_neg (by omega), lineCost, if_neg (by omega)]
    omega
  exact hlonger.trans hmore

/-- A best layout up to one of its rows is cheaper than any other layout of the same words whose last row is
longer. -/
theorem raggedness_lt_of_longer (h : (layout width words).lines.reverse = front ++ row :: back)
    (hfront : Partition front'.flatten front') (hmore : more ≠ []) (hwords : front'.flatten ++ more = front.flatten) :
    raggedness width (linesOf (front ++ [row])) < raggedness width (linesOf (front' ++ [more ++ row])) := by
  have hflat : (front ++ [row]).flatten = front.flatten ++ row := by simp
  have hrow : row ≠ [] := (covers_layout width words).partition.ne_nil row (by rw [h]; simp)
  have hsplit : (layout width words).lines.reverse = (front ++ [row]) ++ back := by simp [h]
  have hlayout := layout_front hsplit
  have hpriced := (least_layout width (front ++ [row]).flatten).priced
  rw [Priced, hlayout, hflat] at hpriced
  rw [hflat] at hlayout
  have hne : front.flatten ++ row ≠ [] := by simp [hrow]
  obtain ⟨i, hi, hlast⟩ := exists_leastAt_layout width hne
  rw [hlast] at hlayout hpriced
  -- the last row starts where the rows before it end
  have hdrop : (front.flatten ++ row).drop i = row := by
    rw [ending, List.reverse_cons] at hlayout
    exact List.singleton_inj.mp (List.append_inj' hlayout rfl).2
  have hplace : i = front.flatten.length := by
    have hlength := congrArg List.length hdrop
    have hlt := hi.lt_high
    rw [List.length_drop, List.length_append] at hlength
    rw [List.length_append] at hlt
    omega
  have hlt : front'.flatten.length < i := by
    rw [hplace, ← hwords, List.length_append]
    exact Nat.lt_add_of_pos_right (List.length_pos_of_ne_nil hmore)
  calc raggedness width (linesOf (front ++ [row]))
      = costAt width (front.flatten ++ row) i := hpriced.symm
    _ < costAt width (front.flatten ++ row) front'.flatten.length := hi.cost_lt _ (Nat.zero_le _) hlt
    _ = lineCost width (layout width front'.flatten).cost (Text.join ' ' (more ++ row)).length := by
      rw [costAt, ← hwords, List.append_assoc, List.take_left, List.drop_left]
    _ ≤ lineCost width (raggedness width (linesOf front')) (Text.join ' ' (more ++ row)).length :=
      lineCost_mono ((least_layout width _).cost_le front' hfront) _
    _ = raggedness width (linesOf (front' ++ [more ++ row])) := (raggedness_append width front' _).symm

/-- If a row that fits is taken out of a best layout, and its last words move down to the next row, where there is room
for them, then its other words make the rows before it dearer. -/
theorem raggedness_lt_of_room (h : (layout width words).lines.reverse = front ++ row :: next :: back)
    (hrow : (Text.join ' ' row).length ≤ width) (hfront : Partition front'.flatten front') (hmore : more ≠ [])
    (hwords : front'.flatten ++ more = front.flatten ++ row) (hfits : (Text.join ' ' (more ++ next)).length ≤ width) :
    raggedness width (linesOf front) < raggedness width (linesOf front') := by
  have hnext : next ≠ [] := (covers_layout width words).partition.ne_nil next (by rw [h]; simp)
  have hsplit : (layout width words).lines.reverse = (front ++ [row]) ++ next :: back := by simp [h]
  have hlt := raggedness_lt_of_longer hsplit hfront hmore (by simpa using hwords)
  rw [raggedness_append, raggedness_append, raggedness_append] at hlt
  by_contra hle
  have hcost : lineCost width _ (Text.join ' ' (more ++ next)).length ≤ lineCost width _ _ :=
    lineCost_mono (Nat.not_lt.mp hle) _
  have hsaved := lineCost_le_of_more hrow (length_join_le_append more hnext) hfits (raggedness width (linesOf front))
  omega

/-! ## Rows of empty words -/

theorem length_join_empty_append (k : Nat) (hrow : row ≠ []) :
    (Text.join ' ' (List.replicate k [] ++ row)).length = k + (Text.join ' ' row).length := by
  have hne : List.replicate k [] ++ row ≠ [] := by simp [hrow]
  have hcount := Text.length_join (c := ' ') hrow
  have hboth := Text.length_join (c := ' ') hne
  simp only [List.flatten_append, List.length_append, List.length_replicate, List.flatten_replicate_nil,
    List.nil_append] at hboth
  omega

theorem length_join_append_empty (k : Nat) (hrow : row ≠ []) :
    (Text.join ' ' (row ++ List.replicate k [])).length = (Text.join ' ' row).length + k := by
  have hne : row ++ List.replicate k [] ≠ [] := by simp [hrow]
  have hcount := Text.length_join (c := ' ') hrow
  have hboth := Text.length_join (c := ' ') hne
  simp only [List.flatten_append, List.length_append, List.length_replicate, List.flatten_replicate_nil,
    List.append_nil] at hboth
  omega

theorem length_join_empty (m : Nat) : (Text.join ' ' (List.replicate (m + 1) [])).length = m := by
  have hne : List.replicate (m + 1) ([] : Text) ≠ [] := by simp
  have hcount := Text.length_join (c := ' ') hne
  simp only [List.flatten_replicate_nil, List.length_nil, List.length_replicate] at hcount
  omega

section

variable (h : (layout width words).lines.reverse = front ++ prior :: List.replicate (m + 1) [] :: next :: back)
include h

theorem ne_nil_around_empty : Partition front.flatten front ∧ prior ≠ [] ∧ next ≠ [] := by
  have hne := (covers_layout width words).partition.ne_nil
  rw [h] at hne
  exact ⟨⟨rfl, fun row hrow => hne row (by simp [hrow])⟩, hne prior (by simp), hne next (by simp)⟩

theorem partition_before_empty (k : Nat) :
    Partition (front ++ [prior ++ List.replicate k []]).flatten (front ++ [prior ++ List.replicate k []]) := by
  obtain ⟨hfront, hprior, -⟩ := ne_nil_around_empty h
  refine ⟨rfl, fun row hrow => ?_⟩
  rcases List.mem_append.mp hrow with hrow | hrow
  · exact hfront.ne_nil row hrow
  · rw [List.mem_singleton.mp hrow]
    simp [hprior]

theorem room_before_empty : width - (Text.join ' ' prior).length ≤ m := by
  obtain ⟨hfront, hprior, -⟩ := ne_nil_around_empty h
  by_contra hroom
  have hfits : (Text.join ' ' (prior ++ List.replicate (m + 1) [])).length ≤ width := by
    rw [length_join_append_empty _ hprior]
    omega
  exact Nat.lt_irrefl _ (raggedness_lt_of_room h (by omega) hfront hprior rfl hfits)

theorem room_around_empty_of_fits (hm : m ≤ width) :
    (width - (Text.join ' ' prior).length) + (width - (Text.join ' ' next).length) ≤ m := by
  obtain ⟨-, hprior, hnext⟩ := ne_nil_around_empty h
  have hbefore := room_before_empty h
  by_contra hroom
  generalize hk : width - (Text.join ' ' prior).length = k at hbefore hroom
  have hsplit : (layout width words).lines.reverse =
      (front ++ [prior]) ++ List.replicate (m + 1) [] :: next :: back := by simp [h]
  have hmore : List.replicate (m + 1 - k) ([] : Text) ≠ [] := by
    rw [ne_eq, List.replicate_eq_nil_iff]
    omega
  have hwords : (front ++ [prior ++ List.replicate k []]).flatten ++ List.replicate (m + 1 - k) [] =
      (front ++ [prior]).flatten ++ List.replicate (m + 1) [] := by
    simp [List.replicate_append_replicate, Nat.add_sub_cancel' (Nat.le_succ_of_le hbefore)]
  have hfits : (Text.join ' ' (List.replicate (m + 1 - k) [] ++ next)).length ≤ width := by
    rw [length_join_empty_append _ hnext]
    omega
  have hlt := raggedness_lt_of_room hsplit (by rwa [length_join_empty]) (partition_before_empty h k) hmore hwords hfits
  rw [raggedness_append, raggedness_append, length_join_append_empty _ hprior] at hlt
  refine absurd hlt (Nat.not_lt.mpr ?_)
  rcases Nat.eq_zero_or_pos k with rfl | hpos
  · exact Nat.le_refl _
  · exact lineCost_le_of_fits (Nat.le_add_right _ _) (by omega) _

/-- A row of empty words that is too wide costs no less than the row before would with one word more than it has room
for. -/
theorem room_around_empty_of_wide (hm : width < m) :
    (width - (Text.join ' ' prior).length) + (width - (Text.join ' ' next).length) ≤ m := by
  obtain ⟨-, hprior, hnext⟩ := ne_nil_around_empty h
  by_contra hroom
  generalize hk : width - (Text.join ' ' prior).length = k at hroom
  have hsplit : (layout width words).lines.reverse =
      (front ++ [prior, List.replicate (m + 1) []]) ++ next :: back := by simp [h]
  have hmore : List.replicate (m - k) ([] : Text) ≠ [] := by
    rw [ne_eq, List.replicate_eq_nil_iff]
    omega
  have hwords : (front ++ [prior ++ List.replicate (k + 1) []]).flatten ++ List.replicate (m - k) [] =
      (front ++ [prior, List.replicate (m + 1) []]).flatten := by
    have hcount : k + 1 + (m - k) = m + 1 := by omega
    simp [List.replicate_append_replicate, hcount]
  have hlt := raggedness_lt_of_longer hsplit (partition_before_empty h (k + 1)) hmore hwords
  have hwide : raggedness width (linesOf (front ++ [prior ++ List.replicate (k + 1) []])) ≤
      raggedness width (linesOf (front ++ [prior, List.replicate (m + 1) []])) := by
    rw [List.append_cons front prior [_], raggedness_append, raggedness_append, length_join_append_empty _ hprior,
      length_join_empty]
    exact lineCost_le_of_wide (by omega) (by omega)
  rw [raggedness_append, raggedness_append, length_join_empty_append _ hnext] at hlt
  refine absurd hlt (Nat.not_lt.mpr ((lineCost_mono hwide _).trans ?_))
  exact lineCost_le_of_fits (Nat.le_add_left _ _) (by omega) _

theorem room_around_empty :
    (width - (Text.join ' ' prior).length) + (width - (Text.join ' ' next).length) ≤ m := by
  rcases Nat.lt_or_ge width m with hm | hm
  · exact room_around_empty_of_wide h hm
  · exact room_around_empty_of_fits h hm

end

/-! ## The lines of a text -/

theorem eq_replicate_of_blankLine (hrow : row ≠ []) (hwords : ∀ word ∈ row, ' ' ∉ word)
    (hblank : BlankLine (Text.join ' ' row)) : row = List.replicate ((Text.join ' ' row).length + 1) [] := by
  have hempty : ∀ word ∈ row, word = [] := by
    intro word hword
    refine List.eq_nil_iff_forall_not_mem.mpr fun c hc => hwords word hword ?_
    rw [← hblank c (Text.mem_join_of_mem hword hc)]
    exact hc
  obtain ⟨m, hm⟩ := Nat.exists_eq_succ_of_ne_zero (List.length_pos_of_ne_nil hrow).ne'
  rw [List.eq_replicate_of_mem hempty, hm, length_join_empty]

theorem not_blankLine_first {ls : List Text} (hne : Text.join ' ' (line :: ls) ≠ [])
    (hstart : (Text.join ' ' (line :: ls)).head? ≠ some ' ') : ¬BlankLine line := by
  intro hblank
  rcases eq_or_ne ls [] with rfl | hls
  · rw [Text.join_singleton] at hne hstart
    exact not_blankLine_of_head? hne hstart hblank
  · rw [Text.join_cons hls, List.append_cons, List.head?_append_of_ne_nil _ (by simp)] at hstart
    refine not_blankLine_of_head? (by simp) hstart fun c hc => ?_
    rcases List.mem_append.mp hc with hc | hc
    · exact hblank c hc
    · exact List.mem_singleton.mp hc

theorem not_blankLine_last {ls : List Text} (hne : Text.join ' ' (ls ++ [line]) ≠ [])
    (hend : (Text.join ' ' (ls ++ [line])).getLast? ≠ some ' ') : ¬BlankLine line := by
  intro hblank
  rcases eq_or_ne ls [] with rfl | hls
  · rw [List.nil_append, Text.join_singleton] at hne hend
    exact not_blankLine_of_getLast? hne hend hblank
  · rw [Text.join_append hls (List.cons_ne_nil _ _), Text.join_singleton,
      List.getLast?_append_of_ne_nil _ (List.cons_ne_nil _ _)] at hend
    exact not_blankLine_of_getLast? (List.cons_ne_nil _ _) hend (List.forall_mem_cons.mpr ⟨rfl, hblank⟩)

theorem exists_row_of_blankLine {before after : List Text} (ht : t ≠ []) (hend : t.getLast? ≠ some ' ')
    (h : ragged t width = before ++ line :: after) (hblank : BlankLine line) :
    ∃ front back, (layout (max width 1) (Text.splitOn ' ' t)).lines.reverse =
      front ++ List.replicate (line.length + 1) [] :: back ∧ before = linesOf front ∧ after = linesOf back := by
  rw [ragged, (breaks_ragged _ _).dropTrailingEmpty_eq_self ht hend, List.map_eq_append_iff] at h
  obtain ⟨front, rest, hrows, rfl, hrest⟩ := h
  obtain ⟨row, back, rfl, rfl, rfl⟩ := List.map_eq_cons_iff.mp hrest
  obtain ⟨hflat, hne⟩ := (covers_layout (max width 1) (Text.splitOn ' ' t)).partition
  rw [hrows] at hflat hne
  have hwords : ∀ word ∈ row, ' ' ∉ word := by
    intro word hword hmem
    have hsplit : word ∈ Text.splitOn ' ' t := by
      rw [← hflat]
      exact List.mem_flatten_of_mem (by simp) hword
    exact absurd (Text.not_sep_of_mem_split hsplit ' ' hmem) (by decide)
  have hrow := eq_replicate_of_blankLine (hne row (by simp)) hwords hblank
  exact ⟨front, back, by rw [← hrow, hrows], rfl, rfl⟩

/-- Of a text that neither starts nor ends with a space greedy breaking makes no blank line, and ragged breaking makes
one only between two lines that have together no more columns left than it has spaces: none if no two spaces stand
side by side. -/
theorem blank_lines (hstart : t.head? ≠ some ' ') (hend : t.getLast? ≠ some ' ') (width : Nat) :
    let W := max width 1
    (∀ line ∈ greedy t width, ¬BlankLine line) ∧
    (∀ before line after, ragged t width = before ++ line :: after → BlankLine line →
      ∃ before' prior next after', before = before' ++ [prior] ∧ after = next :: after' ∧
        (W - prior.length) + (W - next.length) ≤ line.length) ∧
    (¬[' ', ' '] <:+: t → ∀ line ∈ ragged t width, ¬BlankLine line) := by
  intro W
  rcases eq_or_ne t [] with rfl | ht
  · have hgreedy : greedy [] width = [] := by
      rw [greedy, fill_of_le (Nat.zero_le _)]
      rfl
    rw [hgreedy, ragged_nil]
    exact ⟨by simp, by simp, by simp⟩
  refine ⟨?_, fun before line after h hblank => ?_, fun hsingle line hline hblank => ?_⟩
  · rw [greedy_eq_fill ht hend]
    exact not_blankLine_fill ht hend
  · obtain ⟨front, back, hrows, rfl, rfl⟩ := exists_row_of_blankLine ht hend h hblank
    have hjoin : Text.join ' ' (ragged t width) = t := join_ragged ht hend
    rcases List.eq_nil_or_concat' front with rfl | ⟨front, prior, rfl⟩
    · rw [h] at hjoin
      exact absurd hblank (not_blankLine_first (hjoin ▸ ht) (hjoin ▸ hstart))
    cases back with
    | nil =>
      rw [h] at hjoin
      exact absurd hblank (not_blankLine_last (hjoin ▸ ht) (hjoin ▸ hend))
    | cons next back =>
      rw [List.append_assoc, List.singleton_append] at hrows
      exact ⟨linesOf front, _, _, linesOf back, by simp [linesOf], rfl, room_around_empty hrows⟩
  · obtain ⟨before, after, h⟩ := List.append_of_mem hline
    obtain ⟨front, back, hrows, -, -⟩ := exists_row_of_blankLine ht hend h hblank
    refine hsingle (infix_of_nil_mem_splitOn ht hstart hend ?_)
    rw [← (covers_layout (max width 1) (Text.splitOn ' ' t)).1, hrows]
    exact List.mem_flatten_of_mem (List.mem_append_right _ List.mem_cons_self)
      (List.mem_replicate.mpr ⟨Nat.succ_ne_zero _, rfl⟩)

theorem blank_lines_wide_run :
    let t := "aaaaa            bbbbb".toList
    t.head? ≠ some ' ' ∧ t.getLast? ≠ some ' ' ∧
    ragged t 10 = ["aaaaa ".toList, "       ".toList, "  bbbbb".toList] ∧ BlankLine "       ".toList ∧
    (10 - "aaaaa ".toList.length) + (10 - "  bbbbb".toList.length) ≤ "       ".toList.length := by
  intro t
  have hstart : t.head? ≠ some ' ' := by decide
  have hend : t.getLast? ≠ some ' ' := by decide
  have hlines : ragged t 10 = ["aaaaa ".toList, "       ".toList, "  bbbbb".toList] := by decide +kernel
  have hblank : BlankLine "       ".toList := by decide
  obtain ⟨-, hroom, -⟩ := blank_lines hstart hend 10
  obtain ⟨before', prior, next, after', hbefore, hafter, hle⟩ :=
    hroom ["aaaaa ".toList] _ ["  bbbbb".toList] hlines hblank
  have hbefore' : [] ++ ["aaaaa ".toList] = before' ++ [prior] := hbefore
  obtain rfl := List.singleton_inj.mp (List.append_inj' hbefore' rfl).2
  obtain ⟨rfl, -⟩ := List.cons.inj hafter
  exact ⟨hstart, hend, hlines, hblank, hle⟩

/-- Two spaces between letters are one space too many for the width: the empty word between them gets a line. -/
theorem ragged_two_spaces :
    let t := "a  b".toList
    t.head? ≠ some ' ' ∧ t.getLast? ≠ some ' ' ∧ ¬∀ line ∈ ragged t 1, ¬BlankLine line := by
  decide

end Reflow.Break
