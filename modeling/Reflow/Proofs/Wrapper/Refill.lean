import Reflow.Proofs.Break.Again
import Reflow.Proofs.Comment.LinePrefix
import Reflow.Proofs.Wrapper.Layout

/-!
# Refilling line comments

The lines of a comment that all have one prefix and hold plain words are refilled: however the words
are distributed over the lines, wrapping distributes them in the same way (`Wrapper.exists_refill`).
-/

namespace Reflow

/-- A word that is neither white space nor taken for a mark. -/
structure PlainWord (word : Text) : Prop where
  ne_nil : word ≠ []
  /-- None of them is white space, a control character or the mark of a tab. -/
  plain : ∀ c ∈ word, isBlank c = false ∧ isControl c = false ∧ c ≠ tabMark
  head : word.head? ≠ some '<'

instance (word : Text) : Decidable (PlainWord word) :=
  letI : Decidable (∀ c ∈ word, isBlank c = false ∧ isControl c = false ∧ c ≠ tabMark) :=
    List.decidableBAll _ word
  decidable_of_iff (word ≠ [] ∧ (∀ c ∈ word, isBlank c = false ∧ isControl c = false ∧ c ≠ tabMark) ∧
    word.head? ≠ some '<') ⟨fun ⟨hne, hplain, hhead⟩ => ⟨hne, hplain, hhead⟩,
      fun h => ⟨h.ne_nil, h.plain, h.head⟩⟩

/-- The words in order, with at least one in each group. -/
def Distributes (groups : List (List Text)) (words : List Text) : Prop :=
  groups.flatten = words ∧ ∀ group ∈ groups, group ≠ []

/-- A comment whose lines have one prefix. -/
def refill (p : Text) (groups : List (List Text)) : Text :=
  Text.ofLines (groups.map fun group => p ++ Text.join ' ' group)

/-! ## Words with spaces between them -/

section

variable {words : List Text}

theorem exists_cons_join (hne : words ≠ []) (h : ∀ word ∈ words, PlainWord word) :
    ∃ c d, Text.join ' ' words = c :: d ∧ isBlank c = false ∧ isControl c = false ∧ c ≠ '<' := by
  obtain ⟨word, words, rfl⟩ := List.exists_cons_of_ne_nil hne
  have hword := h word List.mem_cons_self
  obtain ⟨c, d, rfl⟩ := List.exists_cons_of_ne_nil hword.ne_nil
  obtain ⟨hblank, hcontrol, -⟩ := hword.plain c List.mem_cons_self
  have htag : c ≠ '<' := by
    rintro rfl
    exact hword.head rfl
  rcases eq_or_ne words [] with rfl | hwords
  · exact ⟨c, d, Text.join_singleton, hblank, hcontrol, htag⟩
  · exact ⟨c, _, Text.join_cons hwords, hblank, hcontrol, htag⟩

theorem getLast?_join_plain (hne : words ≠ []) (h : ∀ word ∈ words, PlainWord word) :
    ∀ c ∈ (Text.join ' ' words).getLast?, isBlank c = false ∧ isControl c = false := by
  refine (Text.getLast?_join hne fun word hword => ⟨(h word hword).ne_nil, fun c hc => ?_⟩).2
  obtain ⟨hblank, hcontrol, -⟩ := (h word hword).plain c (List.mem_of_getLast? hc)
  exact ⟨hblank, hcontrol⟩

theorem splitOn_join_plain (hne : words ≠ []) (h : ∀ word ∈ words, PlainWord word) :
    Text.splitOn ' ' (Text.join ' ' words) = words := by
  refine Text.splitOn_join hne fun word hword hc => ?_
  exact absurd ((h word hword).plain _ hc).1 (by decide)

end

namespace Distributes

variable {groups : List (List Text)} {words : List Text}

theorem ne_nil (h : Distributes groups words) (hne : words ≠ []) : groups ≠ [] := by
  rintro rfl
  exact hne h.1.symm

theorem plain (h : Distributes groups words) (hwords : ∀ word ∈ words, PlainWord word) :
    ∀ group ∈ groups, ∀ word ∈ group, PlainWord word := by
  intro group hgroup word hword
  refine hwords word ?_
  rw [← h.1]
  exact List.mem_flatten_of_mem hgroup hword

end Distributes

/-! ## The lines of a refilled comment -/

section

variable {p : Text} {group words : List Text} {groups : List (List Text)}

theorem splitLine_refill (hp : LinePrefix p) (hne : group ≠ []) (h : ∀ word ∈ group, PlainWord word) :
    (Markers.code.splitLine (p ++ Text.join ' ' group)).indent = p ∧
      (Markers.code.splitLine (p ++ Text.join ' ' group)).rest = Text.join ' ' group := by
  obtain ⟨c, d, hjoin, hblank, hcontrol, htag⟩ := exists_cons_join hne h
  have hlast := getLast?_join_plain hne h
  rw [hjoin] at hlast ⊢
  rw [Markers.splitLine_linePrefix hp hblank htag]
  refine ⟨rfl, Text.strip_eq_self (fun x hx => ?_) fun x hx => (hlast x hx).2⟩
  rw [← Option.some.inj hx]
  exact hcontrol

theorem not_indent_refill (hp : LinePrefix p) (hne : group ≠ []) (h : ∀ word ∈ group, PlainWord word) :
    ¬Indent (p ++ Text.join ' ' group) := by
  obtain ⟨c, d, hjoin, hblank, -, htag⟩ := exists_cons_join hne h
  rw [hjoin]
  exact hp.not_indent_append hblank htag

theorem mem_refill_line (hp : LinePrefix p) (h : ∀ word ∈ group, PlainWord word) {c : Char}
    (hc : c ∈ p ++ Text.join ' ' group) : isBreak c = false ∧ c ≠ '\t' ∧ c ≠ tabMark := by
  rcases List.mem_append.mp hc with hc | hc
  · exact hp.plain hc
  · rcases Text.mem_join hc with rfl | ⟨word, hword, hc⟩
    · decide
    · obtain ⟨hblank, -, hmark⟩ := (h word hword).plain c hc
      refine ⟨not_isBreak_of_not_isBlank hblank, ?_, hmark⟩
      rintro rfl
      exact absurd hblank (by decide)

theorem hasLines_refill :
    HasLines (refill p groups) (groups.map fun group => p ++ Text.join ' ' group) := .inl rfl

variable (hp : LinePrefix p) (hne : words ≠ []) (hwords : ∀ word ∈ words, PlainWord word)
  (h : Distributes groups words)

include hp hne hwords h

theorem properLines_refill : ProperLines (groups.map fun group => p ++ Text.join ' ' group) := by
  refine ⟨by simpa using h.ne_nil hne, fun line hline c hc => ?_, fun hlast => ?_⟩
  · obtain ⟨group, hgroup, rfl⟩ := List.mem_map.mp hline
    exact (mem_refill_line hp (h.plain hwords group hgroup) hc).1
  · obtain ⟨group, hgroup, hnil⟩ := List.mem_map.mp (List.mem_of_getLast? hlast)
    refine not_indent_refill hp (h.2 group hgroup) (h.plain hwords group hgroup) ?_
    rw [hnil]
    exact Indent.nil

theorem worded_refill : Worded (refill p groups) := by
  intro line hline
  rw [hasLines_refill.closedLines_eq (properLines_refill hp hne hwords h)] at hline
  obtain ⟨group, hgroup, rfl⟩ := List.mem_map.mp hline
  exact not_indent_refill hp (h.2 group hgroup) (h.plain hwords group hgroup)

omit hne in
theorem plain_refill : Plain (refill p groups) := by
  intro c hc
  rcases Text.mem_join hc with rfl | ⟨line, hline, hc⟩
  · decide
  · obtain ⟨group, hgroup, rfl⟩ := List.mem_map.mp hline
    obtain ⟨hbreak, hplain⟩ := mem_refill_line hp (h.plain hwords group hgroup) hc
    refine ⟨?_, hplain⟩
    rintro rfl
    cases hbreak

theorem indent_refill : (Markers.code.splitLine (refill p groups)).indent = p := by
  obtain ⟨group, groups, rfl⟩ := List.exists_cons_of_ne_nil (h.ne_nil hne)
  have hgroup := h.2 group List.mem_cons_self
  have hplain := h.plain hwords group List.mem_cons_self
  rw [Markers.indent_splitLine_of_hasLines hasLines_refill (not_indent_refill hp hgroup hplain)]
  exact (splitLine_refill hp hgroup hplain).1

end

namespace Wrapper

variable {w : Wrapper} {p : Text} {words : List Text} {groups : List (List Text)}

theorem isOpener_linePrefix (hp : LinePrefix p) : isOpener p = false := by
  obtain ⟨k, l, n, rfl, hl⟩ := hp
  have hplain : ∀ c ∈ l, isBlank c = false := fun c hc =>
    not_isBlank_of_not_isFiller (not_isFiller_of_isLeaderChar (hl.leader.isLeaderChar hc))
  have htrim : Text.trim (List.replicate k ' ' ++ (l ++ List.replicate (n + 1) ' ')) = l :=
    Text.strip_append (fun c hc => isBlank_of_mem_spaces hc) (fun c hc => isBlank_of_mem_spaces hc)
      (fun c hc => hplain c (List.mem_of_mem_head? hc)) fun c hc => hplain c (List.mem_of_getLast? hc)
  rw [isOpener, htrim]
  cases hl with
  | hashes n => simp [List.replicate_succ]
  | slashes n => simp [List.replicate_succ]
  | semicolons n => simp [List.replicate_succ]
  | dashes | star | dot => rfl

section

variable (hw : w.IsCode) (hp : LinePrefix p) (hne : words ≠ []) (hwords : ∀ word ∈ words, PlainWord word)
  (h : Distributes groups words)

include hw hp hne hwords h

theorem body_refill : w.body (refill p groups) = Text.join ' ' words := by
  have hproper := properLines_refill hp hne hwords h
  have hnonempty : [] ∉ groups.map fun group => p ++ Text.join ' ' group := by
    intro hmem
    obtain ⟨group, hgroup, hnil⟩ := List.mem_map.mp hmem
    refine not_indent_refill hp (h.2 group hgroup) (h.plain hwords group hgroup) ?_
    rw [hnil]
    exact Indent.nil
  have hrest : (groups.map fun group => p ++ Text.join ' ' group).map
      (fun line => (Markers.code.splitLine line).rest) = groups.map (Text.join ' ') := by
    rw [List.map_map]
    refine List.map_congr_left fun group hgroup => ?_
    exact (splitLine_refill hp (h.2 group hgroup) (h.plain hwords group hgroup)).2
  rw [hw.body_eq, unwrap_of_hasLines hasLines_refill hproper hnonempty, hw.markers, hrest,
    Text.join_map_join h.2, h.1]

theorem indents_refill : (w.indents (refill p groups)).first = p ∧ (w.indents (refill p groups)).later = p := by
  have hindent := indent_refill hp hne hwords h
  rw [← hw.markers] at hindent
  refine ⟨by rw [hw.first_eq, hindent], ?_⟩
  rw [hw.later_eq, hindent, continued, isOpener_linePrefix hp]
  rfl

theorem room_refill : w.room (refill p groups) = w.options.width - p.length := by
  rw [hw.room_eq, hw.markers, indent_refill hp hne hwords h]

/-- A comment is wrapped to the comment whose groups of words are the lines that they are broken into. -/
theorem wrap_refill {groups' : List (List Text)}
    (hpieces : w.pieces (refill p groups) = groups'.map (Text.join ' ')) (hne' : groups' ≠ []) :
    w.wrap (refill p groups) = refill p groups' := by
  obtain ⟨hfirst, hlater⟩ := indents_refill hw hp hne hwords h
  obtain ⟨group, rest, rfl⟩ := List.exists_cons_of_ne_nil hne'
  have hlines : w.breakLines (refill p groups) =
      (group :: rest).map fun group => p ++ Text.join ' ' group := by
    rw [breakLines_of_pieces hpieces, hfirst, hlater, List.map_cons, List.map_map]
    rfl
  have hproper := properLines_refill hp hne hwords h
  rw [wrap_eq_wrapExpanded (plain_refill hp hwords h),
    wrapExpanded_of_worded hw.markers (worded_refill hp hne hwords h) hproper.ofLines_ne_nil, hlines]
  exact closeLike_of_ne hproper.getLast?_ofLines_ne

end

/-- However plain words are distributed over the lines of a comment, wrapping distributes them in one
way, and leaves that as it is. -/
theorem exists_refill (hw : w.IsCode) (hp : LinePrefix p) (hne : words ≠ [])
    (hwords : ∀ word ∈ words, PlainWord word) :
    ∃ canonical, Distributes canonical words ∧ w.wrap (refill p canonical) = refill p canonical ∧
      ∀ groups, Distributes groups words → w.wrap (refill p groups) = refill p canonical := by
  have hone : Distributes [words] words := ⟨by simp, by simpa using hne⟩
  obtain ⟨ls, hls, heq⟩ := w.exists_breaks (refill p [words])
  rw [body_refill hw hp hne hwords hone] at hls
  obtain ⟨c, d, hjoin, -⟩ := exists_cons_join hne hwords
  have hdrop := hls.dropTrailingEmpty_eq_self (by rw [hjoin]; exact List.cons_ne_nil _ _) fun hlast =>
    absurd (getLast?_join_plain hne hwords _ hlast).1 (by decide)
  obtain ⟨canonical, rfl, hflat, hcanonical⟩ :=
    hls.exists_groups (splitOn_join_plain hne hwords) fun word hword => (hwords word hword).ne_nil
  have hdistributes : Distributes canonical words := ⟨hflat, hcanonical⟩
  have hwrap : ∀ groups, Distributes groups words → w.wrap (refill p groups) = refill p canonical := by
    intro groups h
    refine wrap_refill hw hp hne hwords h ?_ (hdistributes.ne_nil hne)
    rw [pieces, body_refill hw hp hne hwords h, room_refill hw hp hne hwords h,
      ← body_refill hw hp hne hwords hone, ← room_refill hw hp hne hwords hone]
    exact heq.trans hdrop
  exact ⟨canonical, hdistributes, hwrap canonical hdistributes, hwrap⟩

theorem exists_refill_slashes :
    ∃ canonical, Distributes canonical ["one".toList, "two".toList] ∧
      Wrapper.code.wrap (refill "// ".toList canonical) = refill "// ".toList canonical ∧
      ∀ groups, Distributes groups ["one".toList, "two".toList] →
        Wrapper.code.wrap (refill "// ".toList groups) = refill "// ".toList canonical := by
  have hw : Wrapper.code.IsCode := (isCode_of_ofOptions? (o := {}) rfl rfl rfl).1
  exact exists_refill hw ⟨0, "//".toList, 0, rfl, .slashes 0⟩ (by decide) (by decide)

end Wrapper

end Reflow
