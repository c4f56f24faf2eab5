import Reflow.Proofs.Break.SingleSpaced
import Reflow.Proofs.Wrapper.Layout
import Reflow.Proofs.Wrapper.ProseMargins

/-!
# List items

A list item starts with its symbol, spaces and a bullet and spaces, and what comes after it is a phrase, words with
single spaces between them.  All its lines together are one phrase under the symbol, and so are the lines that wrapping
writes (`Wrapper.IsProse.exists_breakLines_eq`): the first one has the symbol in front and the others as many spaces.
Line breaks in front of the item belong to its symbol.
-/

namespace Reflow

open Reflow.Break (SingleSpaced)

/-- Words with one space between any two and no other white space. -/
def Phrase (t : Text) : Prop :=
  SingleSpaced t ∧ ∀ c ∈ t, isBlank c = true → c = ' '

instance (t : Text) : Decidable (Phrase t) :=
  decidable_of_iff (SingleSpaced t ∧ (t.all fun c => !isBlank c || c = ' ') = true) <| by
    rw [Phrase, List.all_eq_true]
    refine and_congr_right fun _ => forall₂_congr fun c _ => ?_
    cases isBlank c <;> simp

/-- The first line of a list item. -/
structure ListItem where
  /-- How many spaces come before the bullet. -/
  spaces : Nat
  bullet : Text
  /-- How many spaces come between the bullet and the text, without the first one. -/
  gap : Nat
  text : Text
  isBullet : Bullet bullet
  isPhrase : Phrase text
  /-- The text holds more than control characters. -/
  shown : ∃ c ∈ text, isControl c = false

namespace ListItem

def symbol (i : ListItem) : Text :=
  List.replicate i.spaces ' ' ++ (i.bullet ++ List.replicate (i.gap + 1) ' ')

def line (i : ListItem) : Text :=
  i.symbol ++ i.text

def column (i : ListItem) : Nat :=
  i.spaces + i.bullet.length + (i.gap + 1)

theorem length_symbol (i : ListItem) : i.symbol.length = i.column := by
  simp only [symbol, column, List.length_append, List.length_replicate, Nat.add_assoc]

theorem mem_symbol_cases {i : ListItem} {c : Char} (h : c ∈ i.symbol) : c = ' ' ∨ c ∈ i.bullet := by
  rw [symbol, List.mem_append, List.mem_append] at h
  rcases h with h | h | h
  · exact .inl (List.eq_of_mem_replicate h)
  · exact .inr h
  · exact .inl (List.eq_of_mem_replicate h)

end ListItem

variable {t part line : Text} {ls : List Text} {i : ListItem} {n : Nat}

/-! ## Phrases -/

namespace Phrase

theorem of_isInfix (h : Phrase t) (hpart : part <:+: t) (hne : part ≠ []) (hstart : part.head? ≠ some ' ')
    (hend : part.getLast? ≠ some ' ') : Phrase part :=
  ⟨h.1.of_isInfix hpart hne hstart hend, fun c hc => h.2 c (hpart.mem hc)⟩

theorem join (hne : ls ≠ []) (hls : ∀ line ∈ ls, Phrase line) : Phrase (Text.join ' ' ls) := by
  refine ⟨Break.singleSpaced_join hne fun line hline => (hls line hline).1, fun c hc hblank => ?_⟩
  rcases Text.mem_join hc with rfl | ⟨line, hline, hc⟩
  · rfl
  · exact (hls line hline).2 c hc hblank

theorem of_breaks (h : Phrase t) (hls : Break.Breaks t ls) : ∀ line ∈ ls, Phrase line :=
  fun line hline => ⟨h.1.of_breaks hls line hline, fun _ hc => h.2 _ (hls.mem hline hc)⟩

theorem head (h : Phrase t) : ∃ c rest, t = c :: rest ∧ isBlank c = false := by
  obtain ⟨c, rest, rfl⟩ := List.exists_cons_of_ne_nil h.1.ends.1
  refine ⟨c, rest, rfl, ?_⟩
  cases hblank : isBlank c with
  | false => rfl
  | true =>
    obtain rfl := h.2 c List.mem_cons_self hblank
    exact h.1.not_head?_space.elim

theorem last (h : Phrase t) : ∀ c ∈ t.getLast?, isBlank c = false := by
  intro c hc
  cases hblank : isBlank c with
  | false => rfl
  | true =>
    rw [h.2 c (List.mem_of_getLast? hc) hblank] at hc
    exact absurd hc h.1.ends.2

theorem not_isBreak (h : Phrase t) : ∀ c ∈ t, isBreak c = false := by
  intro c hc
  cases hbreak : isBreak c with
  | false => rfl
  | true =>
    rw [h.2 c hc (isBlank_of_isBreak hbreak)] at hbreak
    cases hbreak

end Phrase

/-! ## The rests of lines -/

theorem Leads.phrase_rest {leader : Pattern} {leads : Text → Prop} (h : Leads leader leads) (hline : Phrase line)
    (hbare : (Markers.ofLeader leader).isBare line = false) :
    Phrase ((Markers.ofLeader leader).splitLine line).rest := by
  obtain ⟨m, r, hsplit, hrest⟩ := h.exists_rest_eq line
  obtain ⟨x, y, hr, -, -⟩ := Text.exists_strip isControl r
  rw [Markers.isBare, hrest] at hbare
  rw [hrest]
  refine hline.of_isInfix ⟨m ++ x, y, by rw [hsplit, List.append_assoc, List.append_assoc, ← hr]⟩ ?_
    (fun hhead => absurd (Text.head?_strip _ hhead) (by decide))
    fun hlast => absurd (Text.getLast?_strip _ hlast) (by decide)
  intro hnil
  rw [hnil] at hbare
  cases hbare

namespace ListItem

theorem longest_indent (i : ListItem) :
    Pattern.LongestAt Markers.prose.indent none i.line (List.replicate i.spaces ' ')
      (i.bullet ++ (List.replicate (i.gap + 1) ' ' ++ i.text)) := by
  obtain ⟨d, r, hbullet⟩ := List.exists_cons_of_ne_nil i.isBullet.ne_nil
  have hd : d ∈ i.bullet := hbullet ▸ List.mem_cons_self
  refine Pattern.leads_proseLeaders.longest_indent_iff.mpr
    ⟨by simp [line, symbol], .of_blank (blank_replicate _), fun n rest hn hindent => ?_⟩
  by_contra hlt
  have hsplit : List.replicate i.spaces ' ' ++ (i.bullet ++ (List.replicate (i.gap + 1) ' ' ++ i.text)) =
      n ++ rest := by
    rw [← hn]
    simp [line, symbol]
  obtain ⟨c, e, rfl, hcons⟩ := exists_cons_of_shorter hsplit.symm (Nat.not_le.mp hlt)
  -- the bullet would be part of the indent
  rw [hbullet] at hcons
  obtain ⟨rfl, -⟩ := List.cons.inj hcons
  rcases hindent.mem_cases (List.mem_append_right _ List.mem_cons_self) with h | ⟨l, rfl, h⟩ | h
  · rw [i.isBullet.not_isFiller d hd] at h
    cases h
  · obtain rfl : d = '/' := by simpa using h
    cases i.isBullet.not_isTagChar '/' hd
  · rw [i.isBullet.not_isTagChar d hd] at h
    cases h

theorem not_indent (i : ListItem) : ¬IndentOf (fun l => l = ['/', '/']) i.line := by
  intro h
  have hle := (Pattern.leads_proseLeaders.longest_indent_iff.mp i.longest_indent).2.2 i.line [] (by simp) h
  have hpos := List.length_pos_of_ne_nil i.isBullet.ne_nil
  simp only [line, symbol, List.length_append, List.length_replicate] at hle
  omega

theorem exists_rest_eq (i : ListItem) :
    ∃ u, Phrase u ∧ (Markers.prose.splitLine i.line).rest = i.bullet ++ (List.replicate (i.gap + 1) ' ' ++ u) := by
  obtain ⟨x, y, htext, hx, hy⟩ := Text.exists_strip isControl i.text
  have hne : Text.strip isControl i.text ≠ [] := by
    intro hnil
    obtain ⟨c, hc, hcontrol⟩ := i.shown
    rw [htext, hnil, List.nil_append, List.mem_append] at hc
    rw [hc.elim (hx c) (hy c)] at hcontrol
    cases hcontrol
  have hlast : ∀ c ∈ (x ++ Text.strip isControl i.text).getLast?, isControl c = false := by
    rw [List.getLast?_append_of_ne_nil _ hne]
    exact Text.getLast?_strip
  refine ⟨x ++ Text.strip isControl i.text, i.isPhrase.of_isInfix ⟨[], y, by simpa using htext.symm⟩ (by simp [hne]) ?_
    fun hspace => absurd (hlast _ hspace) (by decide), ?_⟩
  · obtain ⟨c, rest, hcons, hc⟩ := i.isPhrase.head
    have hhead : i.text.head? = (x ++ Text.strip isControl i.text).head? := by
      conv => lhs; rw [htext, ← List.append_assoc, List.head?_append_of_ne_nil _ (by simp [hne])]
    rw [← hhead, hcons]
    intro hspace
    rw [Option.some.inj hspace] at hc
    cases hc
  · rw [Markers.prose, Pattern.leads_proseLeaders.splitLine_eq i.longest_indent]
    have hsplit : i.bullet ++ (List.replicate (i.gap + 1) ' ' ++ i.text) =
        [] ++ (i.bullet ++ (List.replicate (i.gap + 1) ' ' ++ (x ++ Text.strip isControl i.text)) ++ y) := by
      conv => lhs; rw [htext]
      simp
    rw [hsplit]
    refine Text.strip_append (by simp) hy ?_ ?_
    · rw [List.head?_append_of_ne_nil _ i.isBullet.ne_nil]
      exact fun c hc => i.isBullet.not_isControl c (List.mem_of_mem_head? hc)
    · rwa [← List.append_assoc, List.getLast?_append_of_ne_nil _ (by simp [hne])]

end ListItem

/-! ## The lines of a list item -/

theorem Text.join_append_cons {c : Char} (a x : Text) (ls : List Text) :
    Text.join c ((a ++ x) :: ls) = a ++ Text.join c (x :: ls) := by
  rcases eq_or_ne ls [] with rfl | hne
  · rw [Text.join_singleton, Text.join_singleton]
  · rw [Text.join_cons hne, Text.join_cons hne, List.append_assoc]

namespace Wrapper

variable {w : Wrapper} {lead q : Text} {rows : List Text}

theorem blank_breaks_append (hlead : ∀ c ∈ lead, isBreak c = true) (n : Nat) : Blank (lead ++ List.replicate n ' ') :=
  blank_append.mpr ⟨List.all_eq_true.mpr fun c hc => isBlank_of_isBreak (hlead c hc), blank_replicate n⟩

/-- Line breaks in front of a list item belong to its symbol. -/
theorem listSymbol?_item (hlead : ∀ c ∈ lead, isBreak c = true) (hlines : HasLines q (i.line :: rows)) :
    listSymbol? (lead ++ q) = some (lead ++ i.symbol) := by
  obtain ⟨r, rfl⟩ : ∃ r, q = i.line ++ r := by
    rcases hlines.cons_cases with rfl | ⟨rest, rfl⟩
    · exact ⟨[], (List.append_nil _).symm⟩
    · exact ⟨_, rfl⟩
  obtain ⟨c, rest, htext, hc⟩ := i.isPhrase.head
  have hsymbol := listSymbol?_append (r := i.text ++ r) (blank_breaks_append hlead i.spaces) i.isBullet
    (blank_replicate (i.gap + 1)) (by simp) <| by
      rw [htext]
      rintro d ⟨⟩
      exact hc
  simpa [ListItem.line, ListItem.symbol] using hsymbol

/-- A text whose lines are those of a list item: the one that it starts with, and phrases. -/
structure IsItem (w : Wrapper) (i : ListItem) (rows : List Text) (q : Text) : Prop where
  lines : HasLines q (i.line :: rows)
  proper : ProperLines (i.line :: rows)
  rows : ∀ row ∈ rows, Phrase row ∧ w.markers.isBare row = false

namespace IsItem

variable (hq : IsItem w i rows q)
include hq

theorem not_indent (hw : w.IsProse) : ∀ line ∈ Text.closedLines q, ¬IndentOf (fun l => l = ['/', '/']) line := by
  rw [hq.lines.closedLines_eq hq.proper]
  refine List.forall_mem_cons.mpr ⟨i.not_indent, fun row hrow hindent => ?_⟩
  have hbare := (hq.rows row hrow).2
  rw [hw.markers, Markers.prose, Pattern.leads_proseLeaders.isBare_of_indent hindent] at hbare
  cases hbare

theorem head : ∃ c rest, q = c :: rest ∧ isBreak c = false := by
  obtain ⟨c, rest, hcons⟩ := List.exists_cons_of_ne_nil (l := i.line) (by simp [ListItem.line, ListItem.symbol])
  have hc : isBreak c = false := hq.proper.unbroken i.line List.mem_cons_self c (by simp [hcons])
  rcases hq.lines.cons_cases with rfl | ⟨rest', rfl⟩
  · exact ⟨c, rest, hcons, hc⟩
  · exact ⟨c, _, by rw [hcons]; rfl, hc⟩

theorem last : ∀ c ∈ q.getLast?, c = '\n' ∨ isBlank c = false := by
  have hlast : ∀ line ∈ i.line :: rows, line ≠ [] ∧ ∀ c ∈ line.getLast?, isBlank c = false := by
    have hphrase : ∀ {t : Text}, Phrase t → t ≠ [] ∧ ∀ c ∈ t.getLast?, isBlank c = false :=
      fun h => ⟨h.1.ends.1, h.last⟩
    refine List.forall_mem_cons.mpr ⟨?_, fun row hrow => hphrase (hq.rows row hrow).1⟩
    obtain ⟨hne, hend⟩ := hphrase i.isPhrase
    refine ⟨by simp [ListItem.line, hne], ?_⟩
    rwa [ListItem.line, List.getLast?_append_of_ne_nil _ hne]
  rcases hq.lines with rfl | rfl
  · exact fun c hc => .inr ((Text.getLast?_join (List.cons_ne_nil _ _) hlast).2 c hc)
  · simp

end IsItem

namespace IsProse

variable (hw : w.IsProse) (hlead : ∀ c ∈ lead, isBreak c = true) (hq : IsItem w i rows q)
include hw hlead hq

theorem phrase_body : Phrase (w.body (lead ++ q)) := by
  have hne : [] ∉ i.line :: rows := by
    rw [List.mem_cons, not_or]
    exact ⟨by simp [ListItem.line, ListItem.symbol], fun hmem => (hq.rows [] hmem).1.1.ends.1 rfl⟩
  have hfields : Text.fields isBreak (lead ++ q) = i.line :: rows := by
    rw [Text.fields_append fun c hc => hlead c (List.mem_of_getLast? hc), Text.fields_eq_nil hlead, List.nil_append,
      hq.lines.fields_eq hq.proper hne]
  obtain ⟨u, hu, hrest⟩ := i.exists_rest_eq
  have hphrase : Phrase (Text.join ' ' (u :: rows.map fun row => (w.markers.splitLine row).rest)) := by
    refine .join (List.cons_ne_nil _ _) (List.forall_mem_cons.mpr ⟨hu, fun rest hmem => ?_⟩)
    obtain ⟨row, hrow, rfl⟩ := List.mem_map.mp hmem
    obtain ⟨hphrase, hbare⟩ := hq.rows row hrow
    rw [hw.markers] at hbare ⊢
    exact Pattern.leads_proseLeaders.phrase_rest hphrase hbare
  have hunwrap : w.unwrap (lead ++ q) = i.bullet ++ (List.replicate (i.gap + 1) ' ' ++
      Text.join ' ' (u :: rows.map fun row => (w.markers.splitLine row).rest)) := by
    rw [unwrap, hfields, List.map_cons, ← Text.join_append_cons, ← Text.join_append_cons, hw.markers, hrest]
  have hsymbol : lead ++ i.symbol =
      lead ++ List.replicate i.spaces ' ' ++ (i.bullet ++ List.replicate (i.gap + 1) ' ') := by
    simp [ListItem.symbol]
  have hbody : w.body (lead ++ q) = Text.join ' ' (u :: rows.map fun row => (w.markers.splitLine row).rest) := by
    obtain ⟨c, rest, hcons, hc⟩ := hphrase.head
    rw [body, hw.indents_of_some (listSymbol?_item hlead hq.lines), hunwrap]
    simp only [hsymbol]
    rw [if_neg (by simp), dropSymbol_append (blank_breaks_append hlead _) i.isBullet (blank_replicate _),
      Text.trimStart, List.dropWhile_append_of_pos fun c hc => isBlank_of_mem_spaces hc, hcons,
      List.dropWhile_cons_of_neg (by simp [hc])]
  rwa [hbody]

variable (lead) in
theorem exists_breakLines_eq :
    ∃ piece pieces, (∀ p ∈ piece :: pieces, Phrase p) ∧ w.breakLines (lead ++ q) =
      (lead ++ (i.symbol ++ piece)) :: pieces.map fun p => List.replicate (lead.length + i.column) ' ' ++ p := by
  have hbody := hw.phrase_body hlead hq
  obtain ⟨ls, hls, heq⟩ := w.exists_breaks (lead ++ q)
  rw [hls.dropTrailingEmpty_eq_self hbody.1.ends.1 hbody.1.ends.2] at heq
  obtain ⟨piece, pieces, rfl⟩ := List.exists_cons_of_ne_nil hls.ne_nil
  refine ⟨piece, pieces, hbody.of_breaks hls, ?_⟩
  rw [breakLines_of_pieces heq, hw.indents_of_some (listSymbol?_item hlead hq.lines), List.append_assoc,
    List.length_append, i.length_symbol]

end IsProse

end Wrapper

end Reflow
