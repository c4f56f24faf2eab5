import Reflow.Proofs.Comment.Prose
import Reflow.Proofs.Wrapper.Paragraph

/-!
# Wrapping prose

What is visible of a text comes out of wrapping it as prose, in order and nothing else, with one
exception: a list symbol that is all there is in a stretch is dropped.  Since nothing is left of the
stretch without the symbol, it has no lines, and the symbol is written only in front of a first one.  So
wrapping keeps what is visible if and only if there is no such symbol
(`Wrapper.visible_wrap_prose_iff`).
-/

namespace Reflow

namespace Wrapper

open Pattern (gaps uncut)

variable {w : Wrapper} {t : Text}

/-! ## The words of a paragraph of prose -/

/-- The wrapper reads prose and hangs the lines of list items. -/
structure IsProse (w : Wrapper) : Prop where
  markers : w.markers = .prose
  hang : w.options.hangLists = true

theorem isProse_of_ofOptions? {o : Options} {w : Wrapper} (h : ofOptions? o = some w)
    (hleader : o.leader = proseLeader) (hhang : o.hangLists = true) : w.IsProse := by
  rw [ofOptions?, hleader] at h
  have hread : Markers.read? proseLeader = some .prose := by
    rw [Markers.read?, if_neg (by decide), if_pos rfl]
  rw [hread, Option.map_some, Option.some.injEq] at h
  subst h
  exact ⟨rfl, hhang⟩

theorem visible_terminated (ls : List Text) : visible (terminated ls) = ls.flatMap visible := by
  induction ls with
  | nil => rfl
  | cons line ls ih =>
    rw [terminated, List.flatMap_cons, visible_append, visible_append, List.flatMap_cons]
    rw [terminated] at ih
    rw [ih]
    exact congrArg (· ++ _) (List.append_nil _)

theorem visible_dropFinalBreak (t : Text) : visible (dropFinalBreak t) = visible t := by
  rcases dropFinalBreak_cases t with heq | heq
  · rw [← heq]
  · conv => rhs; rw [heq]
    rw [visible_append]
    exact (List.append_nil _).symm

theorem visible_pieces (w : Wrapper) (t : Text) : (w.pieces t).flatMap visible = visible (w.body t) := by
  obtain ⟨ls, hls, heq⟩ := w.exists_breaks t
  rw [heq, ← visible_flatten, Text.flatten_dropTrailingEmpty, ← visible_filter, hls.filter_flatten, visible_filter]

theorem visible_body_of_pieces_nil (h : w.pieces t = []) : visible (w.body t) = [] := by
  rw [← visible_pieces, h]
  rfl

theorem visible_breakLines (hlater : Blank (w.indents t).later) :
    visible (terminated (w.breakLines t)) =
      if w.pieces t = [] then [] else visible (w.indents t).first ++ visible (w.body t) := by
  have hbody := w.visible_pieces t
  rw [visible_terminated, breakLines]
  cases hpieces : w.pieces t with
  | nil => rfl
  | cons piece pieces =>
    have hrest : (pieces.map fun piece => (w.indents t).later ++ piece).flatMap visible = pieces.flatMap visible := by
      rw [List.flatMap_map]
      congr 1
      funext piece
      rw [visible_append, visible_of_blank hlater, List.nil_append]
    rw [if_neg (List.cons_ne_nil _ _), ← hbody, hpieces, List.flatMap_cons, List.flatMap_cons]
    show visible ((w.indents t).first ++ piece) ++ _ = _
    rw [hrest, visible_append, List.append_assoc]

theorem not_isOpener_of_blank {indent : Text} (h : Blank indent) : isOpener indent = false := by
  have htrim : Text.trim indent = [] := by
    have hstrip := Text.strip_append (p := isBlank) (t := []) (a := indent) (b := [])
      (List.all_eq_true.mp h) (by simp) (by simp) (by simp)
    simpa [Text.trim] using hstrip
  simp [isOpener, htrim]

namespace IsProse

variable (hw : w.IsProse)
include hw

theorem visible_unwrap (ht : Unmarked t) : visible (w.unwrap t) = visible t := by
  rw [unwrap, visible_join isBlank_space, List.flatMap_map, ← visible_fields t]
  apply List.flatMap_congr
  intro line hline
  rw [hw.markers]
  apply Markers.visible_rest_prose
  exact ht.mono (Text.mem_of_mem_split (List.mem_of_mem_filter hline))

theorem symbol_eq (t : Text) : (w.indents t).symbol = (listSymbol? t).getD [] := by
  simp [indents, hw.hang]

theorem blank_later (ht : Unmarked t) : Blank (w.indents t).later := by
  have hblank : Blank (w.markers.splitLine t).indent := by
    rw [hw.markers]
    exact Markers.blank_indent_prose ht
  simp only [indents, not_isOpener_of_blank hblank, Bool.false_eq_true, if_false]
  by_cases hsymbol : ((if w.options.hangLists then (listSymbol? t).getD [] else []) : Text).isEmpty
  · rw [if_pos hsymbol]
    exact hblank
  · rw [if_neg hsymbol]
    apply List.all_eq_true.mpr
    intro c hc
    rw [List.eq_of_mem_replicate hc]
    exact isBlank_space

end IsProse

/-! ## List symbols -/

/-- What is visible of a stretch, unless it is only a list symbol. -/
def spared (t : Text) : Text :=
  if IsLoneSymbol t then [] else visible t

theorem exists_fields_eq {a b r : Text} (ha : Blank a) (hb : ∀ c ∈ b, isBlank c = false) (hne : b ≠ [])
    (hlines : ∀ line ∈ Text.fields isBreak (a ++ (b ++ r)), ¬Blank line) :
    ∃ a' z lines, Text.fields isBreak (a ++ (b ++ r)) = (a' ++ (b ++ z)) :: lines ∧ Blank a' := by
  have hbreak : ∀ c ∈ b, isBreak c = false := fun c hc => not_isBreak_of_not_isBlank (hb c hc)
  generalize hn : a.length = n
  induction n using Nat.strong_induction_on generalizing a with
  | _ n ih =>
    rcases Text.split_cases isBreak a with hall | ⟨first, c, rest, rfl, hc, hfirst⟩
    · -- the white space is in front of the bullet
      have hfront : ∀ z : Text, (∀ c ∈ z, isBreak c = false) → ∀ c ∈ a ++ (b ++ z), isBreak c = false := by
        intro z hz c hmem
        rcases List.mem_append.mp hmem with hmem | hmem
        · exact hall c hmem
        · rcases List.mem_append.mp hmem with hmem | hmem
          · exact hbreak c hmem
          · exact hz c hmem
      have hfield : ∀ z : Text, (!(a ++ (b ++ z)).isEmpty) = true := by
        intro z
        simp [hne]
      rcases Text.split_cases isBreak r with hr | ⟨z, d, rest, rfl, hd, hz⟩
      · refine ⟨a, r, [], ?_, ha⟩
        rw [Text.fields, Text.split_eq_singleton (hfront r hr)]
        exact List.filter_cons_of_pos (hfield r)
      · refine ⟨a, z, Text.fields isBreak rest, ?_, ha⟩
        have happend : a ++ (b ++ (z ++ d :: rest)) = (a ++ (b ++ z)) ++ d :: rest := by simp
        rw [Text.fields, happend, Text.split_append hd, Text.split_eq_singleton (hfront z hz), List.singleton_append]
        exact List.filter_cons_of_pos (hfield z)
    · -- a line of white space would be one of the lines
      rw [blank_append, blank_cons] at ha
      have happend : first ++ c :: rest ++ (b ++ r) = first ++ c :: (rest ++ (b ++ r)) := by simp
      have hfields : Text.fields isBreak (first ++ c :: rest ++ (b ++ r)) =
          [first].filter (fun piece => !piece.isEmpty) ++ Text.fields isBreak (rest ++ (b ++ r)) := by
        rw [Text.fields, happend, Text.split_append hc, Text.split_eq_singleton hfirst, List.filter_append]
        rfl
      have hnil : first = [] := by
        by_contra hfirst'
        apply hlines first _ ha.1
        rw [hfields]
        exact List.mem_append_left _ (List.mem_filter.mpr ⟨List.mem_singleton_self _, by simpa using hfirst'⟩)
      rw [hfields] at hlines ⊢
      rw [hnil] at hlines ⊢
      have hlen : rest.length < n := by
        rw [← hn, List.length_append, List.length_cons]
        omega
      exact ih rest.length hlen ha.2.2 hlines rfl

theorem exists_strip_eq {p : Char → Bool} {b z : Text} (hne : b ≠ []) (hb : ∀ c ∈ b, p c = false) :
    ∃ z', Text.strip p (b ++ z) = b ++ z' := by
  obtain ⟨x, y, heq, hx, hy⟩ := Text.exists_strip p (b ++ z)
  obtain ⟨d, b', rfl⟩ := List.exists_cons_of_ne_nil hne
  have hxnil : x = [] := by
    cases x with
    | nil => rfl
    | cons e x =>
      obtain ⟨rfl, -⟩ := List.cons.inj heq
      have hd := hb d List.mem_cons_self
      rw [hx d List.mem_cons_self] at hd
      cases hd
  rw [hxnil, List.nil_append] at heq
  rcases List.append_eq_append_iff.mp heq with ⟨z', hz', -⟩ | ⟨e, he, hz⟩
  · exact ⟨z', hz'⟩
  · cases e with
    | nil => exact ⟨[], by rw [List.append_nil] at he ⊢; exact he.symm⟩
    | cons f e =>
      have hf := hb f (by rw [he]; simp)
      rw [hy f (by rw [hz]; simp)] at hf
      cases hf

theorem dropSymbol_append {a b c : Text} (ha : Blank a) (hb : Bullet b) (hc : Blank c) (u : Text) :
    dropSymbol (a ++ (b ++ c)) (b ++ u) = Text.trimStart u := by
  have htrim : Text.trim (a ++ (b ++ c)) = b :=
    Text.strip_append (List.all_eq_true.mp ha) (List.all_eq_true.mp hc)
      (fun d hd => hb.not_isBlank d (List.mem_of_mem_head? hd)) fun d hd => hb.not_isBlank d (List.mem_of_getLast? hd)
  have hprefix : b.isPrefixOf (b ++ u) = true := List.isPrefixOf_iff_prefix.mpr ⟨u, rfl⟩
  simp only [dropSymbol, htrim, Text.after?, hprefix, if_true, List.drop_left]

namespace IsProse

variable (hw : w.IsProse)
include hw

theorem exists_unwrap_eq {a b r : Text} (ht : Unmarked (a ++ (b ++ r))) (ha : Blank a) (hb : Bullet b)
    (hlines : ∀ line ∈ Text.fields isBreak (a ++ (b ++ r)), ¬Blank line) :
    ∃ u, w.unwrap (a ++ (b ++ r)) = b ++ u := by
  obtain ⟨a', z, lines, hfields, ha'⟩ := exists_fields_eq ha hb.not_isBlank hb.ne_nil hlines
  have hline : ∀ c ∈ a' ++ (b ++ z), c ∈ a ++ (b ++ r) := by
    have hmem : a' ++ (b ++ z) ∈ Text.fields isBreak (a ++ (b ++ r)) := by
      rw [hfields]
      exact List.mem_cons_self
    exact Text.mem_of_mem_split (List.mem_of_mem_filter hmem)
  have hhead : ∀ d ∈ (b ++ z).head?, isBlank d = false := by
    intro d hd
    rw [List.head?_append_of_ne_nil _ hb.ne_nil] at hd
    exact hb.not_isBlank d (List.mem_of_mem_head? hd)
  have hcontrol : ∀ c ∈ b, isControl c = false := by
    intro c hc
    cases h : isControl c with
    | false => rfl
    | true =>
      have hblank := (ht c (by simp [hc])).2.2.2.2 h
      rw [hb.not_isBlank c hc] at hblank
      cases hblank
  obtain ⟨z', hz'⟩ := exists_strip_eq (z := z) hb.ne_nil hcontrol
  have hrest : (w.markers.splitLine (a' ++ (b ++ z))).rest = b ++ z' := by
    rw [hw.markers, Markers.splitLine_prose (ht.mono hline) ha' hhead, hz']
  rw [unwrap, hfields, List.map_cons, hrest]
  cases lines with
  | nil => exact ⟨z', Text.join_singleton⟩
  | cons line lines =>
    rw [List.map_cons, Text.join_cons (List.cons_ne_nil _ _), List.append_assoc]
    exact ⟨_, rfl⟩

theorem visible_breakLines_of_none (ht : Unmarked t) (hsymbol : listSymbol? t = none) :
    visible (terminated (w.breakLines t)) = visible t := by
  have hnil : (w.indents t).symbol = [] := by
    rw [hw.symbol_eq, hsymbol]
    rfl
  have hbody : w.body t = w.unwrap t := by
    simp [body, hnil]
  have hindent : (w.indents t).first = (w.markers.splitLine t).indent :=
    if_pos (List.isEmpty_iff.mpr hnil)
  have hfirst : visible (w.indents t).first = [] := by
    rw [hindent, hw.markers]
    exact visible_of_blank (Markers.blank_indent_prose ht)
  rw [visible_breakLines (hw.blank_later ht), hfirst, List.nil_append]
  split
  · rename_i hpieces
    rw [← hw.visible_unwrap ht, ← hbody, visible_body_of_pieces_nil hpieces]
  · rw [hbody, hw.visible_unwrap ht]

theorem visible_breakLines_of_some {a b c r : Text} (ht : Unmarked (a ++ (b ++ c) ++ r))
    (hsymbol : listSymbol? (a ++ (b ++ c) ++ r) = some (a ++ (b ++ c))) (ha : Blank a) (hb : Bullet b)
    (hc : Blank c) (hr : ∀ d ∈ r.head?, isBlank d = false)
    (hlines : ∀ line ∈ Text.fields isBreak (a ++ (b ++ c) ++ r), ¬Blank line) :
    visible (terminated (w.breakLines (a ++ (b ++ c) ++ r))) = if r = [] then [] else b ++ visible r := by
  have happend : a ++ (b ++ c) ++ r = a ++ (b ++ (c ++ r)) := by simp
  have hsymbol' : (w.indents (a ++ (b ++ c) ++ r)).symbol = a ++ (b ++ c) := by
    rw [hw.symbol_eq, hsymbol]
    rfl
  have hne : (a ++ (b ++ c)).isEmpty = false := by
    simp [hb.ne_nil]
  have hvisible : visible (a ++ (b ++ c)) = b := by
    rw [visible_append, visible_append, visible_of_blank ha, visible_of_blank hc, visible_eq_self hb.not_isBlank,
      List.nil_append, List.append_nil]
  have hfirst : (w.indents (a ++ (b ++ c) ++ r)).first = a ++ (b ++ c) := by
    have h : (w.indents (a ++ (b ++ c) ++ r)).first = (w.indents (a ++ (b ++ c) ++ r)).symbol :=
      if_neg (by rw [← Bool.not_eq_true] at hne; rw [← hsymbol'] at hne; exact hne)
    rw [h, hsymbol']
  obtain ⟨u, hu⟩ : ∃ u, w.unwrap (a ++ (b ++ c) ++ r) = b ++ u := by
    rw [happend] at ht hlines ⊢
    exact hw.exists_unwrap_eq ht ha hb hlines
  have hbody : w.body (a ++ (b ++ c) ++ r) = Text.trimStart u := by
    simp only [body, hsymbol', hne, Bool.false_eq_true, if_false, hu, dropSymbol_append ha hb hc]
  have hrest : visible u = visible r := by
    have h := hw.visible_unwrap ht
    rw [hu, visible_append, visible_append, hvisible, visible_eq_self hb.not_isBlank] at h
    exact List.append_cancel_left h
  have htrimStart : visible (Text.trimStart u) = visible u := by
    conv => rhs; rw [← List.takeWhile_append_dropWhile (p := isBlank) (l := u)]
    rw [visible_append, visible_of_blank List.all_takeWhile]
    rfl
  rw [visible_breakLines (hw.blank_later ht), hfirst, hvisible, hbody, htrimStart, hrest]
  cases r with
  | nil =>
    -- there is no line to write the symbol in front of
    have hnil : Text.trimStart u = [] := by
      have hblank : Blank u := visible_eq_nil_iff.mp hrest
      rw [Text.trimStart, ← List.append_nil u, List.dropWhile_append_of_pos (List.all_eq_true.mp hblank)]
      rfl
    rw [if_pos rfl, if_pos (pieces_of_body_nil (hbody.trans hnil))]
  | cons d r =>
    have hpieces : w.pieces (a ++ (b ++ c) ++ d :: r) ≠ [] := by
      intro hnil
      have hblank : visible (d :: r) = [] := by
        rw [← hrest, ← htrimStart, ← hbody, visible_body_of_pieces_nil hnil]
      have hd := hr d rfl
      rw [(blank_cons.mp (visible_eq_nil_iff.mp hblank)).1] at hd
      cases hd
    rw [if_neg (List.cons_ne_nil d r), if_neg hpieces]

/-- What is written of a stretch: nothing if it is only a list symbol, and else all that is visible. -/
theorem visible_stretch (ht : Unmarked t) (hlines : ∀ line ∈ Text.fields isBreak t, ¬Blank line) :
    visible (terminated (w.breakLines t)) = spared t := by
  rw [spared]
  cases hsymbol : listSymbol? t with
  | none =>
    have hlone : ¬IsLoneSymbol t := by
      intro h
      rw [IsLoneSymbol, hsymbol] at h
      cases h
    rw [if_neg hlone, hw.visible_breakLines_of_none ht hsymbol]
  | some symbol =>
    obtain ⟨a, b, c, r, rfl, rfl, ha, hb, hc, -, hr⟩ := exists_of_listSymbol? hsymbol
    have hlone : IsLoneSymbol (a ++ (b ++ c) ++ r) ↔ r = [] := by
      rw [IsLoneSymbol, hsymbol, Option.some.injEq]
      exact List.self_eq_append_right
    rw [hw.visible_breakLines_of_some ht hsymbol ha hb hc hr hlines]
    by_cases hnil : r = []
    · rw [if_pos hnil, if_pos (hlone.mpr hnil)]
    · rw [if_neg hnil, if_neg (mt hlone.mp hnil), visible_append, visible_append, visible_append,
        visible_of_blank ha, visible_of_blank hc, visible_eq_self hb.not_isBlank, List.nil_append, List.append_nil]

/-! ## Between bare lines -/

theorem visible_wrapBetween {whole last : Text} {cuts : List Pattern.Cut}
    (hhits : ∀ cut ∈ cuts, cut.hit ≠ [] ∧ Blank cut.hit)
    (hgaps : ∀ s ∈ gaps (cuts, last), Unmarked s ∧ ∀ line ∈ Text.fields isBreak s, ¬Blank line) :
    visible (w.wrapBetween whole [] cuts last) =
      (gaps (cuts, last)).flatMap spared := by
  induction cuts with
  | nil =>
    obtain ⟨hlast, hlines⟩ := hgaps last (List.mem_singleton_self _)
    show _ = [last].flatMap _
    rw [List.flatMap_singleton, wrapBetween_last]
    exact hw.visible_stretch hlast hlines
  | cons cut cuts ih =>
    obtain ⟨⟨hne, hhit⟩, hhits⟩ := List.forall_mem_cons.mp hhits
    obtain ⟨⟨hgap, hlines⟩, hgaps⟩ := List.forall_mem_cons.mp hgaps
    have hfirst : visible (if cut.hit.isPrefixOf whole then cut.hit ++ ['\n'] else []) = [] := by
      split
      · rw [visible_append, visible_of_blank hhit]
        rfl
      · rfl
    have hlast : visible (if cut.hit.isSuffixOf whole then cut.hit else []) = [] := by
      split
      · exact visible_of_blank hhit
      · rfl
    rw [w.wrapBetween_cons hne, visible_append, visible_append, visible_append, hfirst, hlast, List.nil_append,
      List.nil_append, List.append_nil, hw.visible_stretch hgap hlines, ih hhits hgaps]
    rfl

theorem visible_wrapParagraph (ht : Unmarked t) :
    visible (w.wrapParagraph t) = (gaps (w.markers.bareLine.sections t)).flatMap spared := by
  have hsections := Pattern.sectioned_sections Pattern.isLeader_proseLeaders.longest_bareLine t
  rw [wrapParagraph_eq_sections, visible_dropFinalBreak, hw.markers]
  apply hw.visible_wrapBetween
  · intro cut hmem
    exact ⟨hsections.ne_nil cut hmem, Markers.blank_hits_bareLine ht cut hmem⟩
  · intro s hs
    refine ⟨ht.mono fun c hc => ?_, fun line hline => ?_⟩
    · rw [← Pattern.uncut_sections Markers.prose.bareLine t]
      exact Pattern.mem_uncut_of_mem_gaps hs hc
    · exact Markers.not_blank_of_passed (Pattern.passed_of_mem_gaps_sections (Pattern.ofLines_bareLine _)
        Pattern.isLeader_proseLeaders.longest_bareLine hs hline)

end IsProse

/-! ## A whole text -/

theorem visible_uncut {last : Text} {cuts : List Pattern.Cut} (hhits : ∀ cut ∈ cuts, Blank cut.hit) :
    visible (uncut cuts last) = (gaps (cuts, last)).flatMap visible := by
  induction cuts with
  | nil => exact (List.flatMap_singleton ..).symm
  | cons cut cuts ih =>
    obtain ⟨hhit, hhits⟩ := List.forall_mem_cons.mp hhits
    rw [uncut, visible_append, visible_append, visible_of_blank hhit, List.nil_append, ih hhits]
    rfl

theorem visible_wrapAround {last : Text} {cuts : List Pattern.Cut} (hhits : ∀ cut ∈ cuts, Blank cut.hit) :
    visible (w.wrapAround cuts last) = (gaps (cuts, last)).flatMap fun t => visible (w.wrapParagraph t) := by
  induction cuts with
  | nil =>
    rw [wrapAround_nil]
    exact (List.flatMap_singleton ..).symm
  | cons cut cuts ih =>
    obtain ⟨hhit, hhits⟩ := List.forall_mem_cons.mp hhits
    rw [wrapAround, visible_append, visible_append, visible_of_blank hhit, List.append_nil, ih hhits]
    rfl

theorem visible_closeLike (t wrapped : Text) : visible (closeLike t wrapped) = visible wrapped := by
  rcases closeLike_cases t wrapped with heq | heq
  · rw [heq]
  · rw [heq, visible_append]
    exact List.append_nil _

theorem visible_apply (ending : LineEnding) (t : Text) : visible (ending.apply t) = visible t := by
  cases ending with
  | lf => rfl
  | crlf =>
    induction t with
    | nil => rfl
    | cons c t ih =>
      rw [LineEnding.apply_crlf_cons, visible_append, ih]
      by_cases hc : c = '\n'
      · rw [if_pos hc, hc]
        rfl
      · rw [if_neg hc, ← visible_append, List.singleton_append]

theorem visible_normalize (t : Text) : visible (LineEnding.normalize t) = visible t := by
  induction t using LineEnding.normalize.induct with
  | case1 => rfl
  | case2 t ih =>
    rw [LineEnding.normalize]
    exact ih
  | case3 c t hc ih =>
    rw [LineEnding.normalize]
    · rw [← List.singleton_append, visible_append, ih, ← visible_append, List.singleton_append]
    · exact hc

theorem visible_ne_nil_of_isLoneSymbol (h : IsLoneSymbol t) : visible t ≠ [] := by
  obtain ⟨a, b, c, r, heq, -, ha, hb, hc, -⟩ := exists_of_listSymbol? h
  rw [heq, visible_append, visible_append, visible_eq_self hb.not_isBlank]
  simp [hb.ne_nil]

theorem flatMap_spared_eq_iff (ts : List Text) :
    ts.flatMap spared = ts.flatMap visible ↔ ∀ s ∈ ts, ¬IsLoneSymbol s := by
  have hle : ∀ ts : List Text, (ts.flatMap spared).length ≤ (ts.flatMap visible).length := by
    intro ts
    induction ts with
    | nil => exact Nat.le_refl _
    | cons s ts ih =>
      have hs : (spared s).length ≤ (visible s).length := by
        unfold spared
        split
        · exact Nat.zero_le _
        · exact Nat.le_refl _
      simp only [List.flatMap_cons, List.length_append]
      omega
  induction ts with
  | nil => simp
  | cons s ts ih =>
    rw [List.forall_mem_cons, List.flatMap_cons, List.flatMap_cons, spared]
    by_cases hs : IsLoneSymbol s
    · have hpos := List.length_pos_of_ne_nil (visible_ne_nil_of_isLoneSymbol hs)
      rw [if_pos hs, List.nil_append]
      constructor
      · intro h
        have hlen := congrArg List.length h
        rw [List.length_append] at hlen
        have := hle ts
        omega
      · exact fun h => absurd hs h.1
    · rw [if_neg hs, List.append_cancel_left_eq]
      exact ⟨fun h => ⟨hs, ih.mp h⟩, fun h => ih.mpr h.2⟩

theorem IsProse.visible_wrapExpanded (hw : w.IsProse) (ht : Unmarked t) :
    visible (w.wrapExpanded t) = (w.markers.stretches t).flatMap spared := by
  rw [wrapExpanded_eq, visible_closeLike, hw.markers, visible_wrapAround (Markers.blank_hits_separator ht),
    Markers.stretches, List.flatMap_assoc]
  apply List.flatMap_congr
  intro p hp
  rw [hw.visible_wrapParagraph (ht.mono fun c hc => ?_), hw.markers]
  rw [← Pattern.uncut_cuts Markers.prose.separator t]
  exact Pattern.mem_uncut_of_mem_gaps hp hc

theorem visible_stretches (ht : Unmarked t) : (Markers.prose.stretches t).flatMap visible = visible t := by
  rw [Markers.stretches, List.flatMap_assoc]
  conv => rhs; rw [← Pattern.uncut_cuts Markers.prose.separator t, visible_uncut (Markers.blank_hits_separator ht)]
  apply List.flatMap_congr
  intro p hp
  have hp' : Unmarked p := by
    apply ht.mono
    intro c hc
    rw [← Pattern.uncut_cuts Markers.prose.separator t]
    exact Pattern.mem_uncut_of_mem_gaps hp hc
  conv => rhs; rw [← Pattern.uncut_sections Markers.prose.bareLine p]
  exact (visible_uncut (Markers.blank_hits_bareLine hp')).symm

theorem IsProse.visible_wrap (hw : w.IsProse) (ht : Unmarked t) :
    visible (w.wrap t) = (w.markers.stretches (LineEnding.normalize t)).flatMap spared := by
  have hnormal : Unmarked (LineEnding.normalize t) := ht.mono fun c hc => LineEnding.mem_of_mem_normalize hc
  have htab : '\t' ∉ LineEnding.normalize t := fun h => (hnormal _ h).1 rfl
  have hmark : tabMark ∉ w.wrapExpanded (LineEnding.normalize t) :=
    not_mem_wrapExpanded (by decide) fun h => (hnormal _ h).2.1 rfl
  rw [wrap_eq, visible_apply, expandTabs_eq_self htab, collapseTabs, collapseFrom_eq_self hmark,
    hw.visible_wrapExpanded hnormal]

/-- Wrapping prose keeps what is visible, all of it in order, if and only if no stretch between blank lines
is only a list symbol. -/
theorem visible_wrap_prose_iff (hw : w.IsProse) (ht : Unmarked t) :
    visible (w.wrap t) = visible t ↔
      ∀ s ∈ w.markers.stretches (LineEnding.normalize t), ¬IsLoneSymbol s := by
  have hnormal : Unmarked (LineEnding.normalize t) := ht.mono fun c hc => LineEnding.mem_of_mem_normalize hc
  rw [hw.visible_wrap ht, ← visible_normalize t, ← visible_stretches hnormal, hw.markers]
  exact flatMap_spared_eq_iff _

theorem wrap_dash_ne :
    visible ((⟨.prose, .prose⟩ : Wrapper).wrap "- ".toList) ≠ visible "- ".toList := by
  have hseparator : Markers.prose.separator.cuts "- ".toList = ([], "- ".toList) :=
    Pattern.cutsFrom_eq_of_none (by decide)
  have hbareLine : Markers.prose.bareLine.cuts "- ".toList = ([], "- ".toList) :=
    Pattern.cutsFrom_eq_of_none (by decide)
  intro h
  have hw : IsProse ⟨.prose, .prose⟩ := isProse_of_ofOptions? (o := .prose) rfl rfl rfl
  refine (visible_wrap_prose_iff hw (by decide)).mp h "- ".toList ?_ (by decide)
  show _ ∈ Markers.prose.stretches "- ".toList
  rw [Markers.stretches, hseparator]
  show _ ∈ ["- ".toList].flatMap _
  rw [List.flatMap_singleton, Pattern.sections, hbareLine]
  exact List.mem_singleton_self _

end Wrapper

end Reflow
