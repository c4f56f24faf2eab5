import Reflow.Proofs.Editor.Setup
import Reflow.Proofs.Editor.Sound
import Reflow.Proofs.Text.LineEnding

/-!
# Cutting and pasting

What is selected in a sound session is the middle one of three parts of its text, in whichever direction it was
selected (`Session.Selects`).  Copying puts that part into the clipboard, erasing joins the other two, and
pasting the part between them puts the text together again (`Sitting.cut_and_paste`).
-/

namespace Reflow

namespace Session

variable {s : Session} {w : World} {x y z : Text}

/-- The event of a command runs it, at most with the message taken away before. -/
theorem exists_handle_eq {e : Event} {c : Command} (h : e.command? s = some c) (w : World) :
    ∃ status, s.handle w e = { s with status }.execute w c := by
  cases e with
  | press key =>
    show ∃ status, s.press w key = _
    rw [press_eq]
    by_cases hhelp : s.helpShown
    · simp [Event.command?, hhelp] at h
    · rw [if_neg hhelp]
      cases hresponse : key.response s.mode s.commandLine with
      | run c' =>
        obtain rfl : c' = c := by simpa [Event.command?, hhelp, hresponse] using h
        exact ⟨_, rfl⟩
      | _ => simp [Event.command?, hhelp, hresponse] at h
  | execute c' =>
    cases h
    exact ⟨s.status, rfl⟩
  | _ => cases h

/-! ## What is selected -/

/-- Of three parts of the text, the middle one is selected. -/
structure Selects (s : Session) (x z y : Text) : Prop where
  lines : s.buffer.lines = Text.lines (x ++ z ++ y)
  ne_nil : z ≠ []
  selection : s.selection = some ⟨.after x, .after (x ++ z)⟩

theorem Sound.exists_selects (h : s.Sound) {selected : Selection} (hselected : s.selection = some selected) :
    ∃ x z y, s.Selects x z y := by
  obtain ⟨hbefore, hstart, hstop⟩ := h.selection hselected
  obtain ⟨x, z, y, htext, hends⟩ := Buffer.exists_selected h.buffer.lines hstart hstop
  have hlines : s.buffer.lines = Text.lines (x ++ z ++ y) := h.buffer.lines.trans (congrArg Text.lines htext)
  rcases hends with rfl | rfl
  · refine ⟨x, z, y, hlines, ?_, hselected⟩
    rintro rfl
    have hnot := Position.not_isBefore_after x []
    rw [List.append_nil] at hnot hbefore
    rw [hnot] at hbefore
    cases hbefore
  · rw [Position.not_isBefore_after] at hbefore
    cases hbefore

namespace Selects

variable (h : s.Selects x z y)
include h

theorem of_eq {s' : Session} (hbuffer : s'.buffer = s.buffer) (hanchor : s'.anchor = s.anchor) :
    s'.Selects x z y := by
  refine ⟨hbuffer ▸ h.lines, h.ne_nil, ?_⟩
  rw [Session.selection, hbuffer, hanchor]
  exact h.selection

theorem text : s.buffer.text = x ++ z ++ y := by
  rw [Buffer.text, h.lines, Text.ofLines_lines]

theorem lines_start : s.buffer.lines = Text.lines (x ++ (z ++ y)) := by
  rw [h.lines, List.append_assoc]

theorem offset_start : s.buffer.offset (.after x) = x.length :=
  Buffer.offset_after h.lines_start

theorem offset_stop : s.buffer.offset (.after (x ++ z)) = (x ++ z).length :=
  Buffer.offset_after h.lines

theorem offset_lt : s.buffer.offset (.after x) < s.buffer.offset (.after (x ++ z)) := by
  have hpos := List.length_pos_of_ne_nil h.ne_nil
  rw [h.offset_start, h.offset_stop, List.length_append]
  omega

theorem offset_stop_le : s.buffer.offset (.after (x ++ z)) ≤ s.buffer.text.length := by
  rw [h.offset_stop, h.text]
  exact (List.prefix_append (x ++ z) y).length_le

theorem take_start : s.buffer.text.take (s.buffer.offset (.after x)) = x := by
  rw [h.text, h.offset_start, List.append_assoc, List.take_left]

theorem drop_stop : s.buffer.text.drop (s.buffer.offset (.after (x ++ z))) = y := by
  rw [h.text, h.offset_stop, List.drop_left]

theorem between :
    (s.buffer.text.take (s.buffer.offset (.after (x ++ z)))).drop (s.buffer.offset (.after x)) = z := by
  rw [h.text, h.offset_stop, List.take_left, h.offset_start, List.drop_left]

theorem clamp : s.buffer.clampSelection ⟨.after x, .after (x ++ z)⟩ = ⟨.after x, .after (x ++ z)⟩ :=
  Buffer.clampSelection_selected h.lines (.inl rfl)

theorem edit_eq (f : Buffer → Buffer) :
    s.edit f = { s with buffer := f (.parted x y), anchor := none, dirty := true } := by
  have hcleared := Buffer.replace_of_clampSelection h.lines_start h.lines h.clamp []
  rw [List.append_nil] at hcleared
  rw [edit, h.selection]
  simp only [hcleared]

theorem erase_eq (f : Buffer → Buffer) :
    s.erase f = { s with buffer := .parted x y, anchor := none, dirty := true } := by
  rw [erase, h.selection, Option.isSome_some, if_pos rfl, h.edit_eq]
  rfl

theorem exists_copy_eq (hworks : w.clipboard.works = true) :
    ∃ status, s.copy w = ({ s with status }, { w with clipboard.content := some z }) := by
  have htext : s.buffer.textIn ⟨.after x, .after (x ++ z)⟩ = z := Buffer.textIn_of_clampSelection h.lines h.clamp
  simp only [copy, h.selection, Option.getD_some, htext, World.copy, hworks, if_true]
  exact ⟨_, rfl⟩

end Selects

theorem edit_of_anchor (h : s.anchor = none) (f : Buffer → Buffer) :
    s.edit f = { s with buffer := f s.buffer, anchor := none, dirty := true } := by
  have hselection : s.selection = none := by
    rw [selection, h]
    rfl
  rw [edit, hselection]

theorem buffer_paste (hmode : s.mode = .editing) (hanchor : s.anchor = none) (hbuffer : s.buffer = .parted x y)
    (hz : ¬['\r', '\n'] <:+: z) : (s.paste z).buffer = .parted (x ++ z) y := by
  have hnormal : LineEnding.normalize z = z :=
    LineEnding.normalize_eq_self_iff.mpr (LineEnding.noReturns_iff_not_isInfix.mpr hz)
  obtain ⟨scroll, hfollow⟩ := exists_follow_eq (s.edit fun b => b.insertText z)
  rw [paste, hmode, hnormal]
  show ((s.edit fun b => b.insertText z).follow).buffer = _
  rw [hfollow, edit_of_anchor hanchor, hbuffer, Buffer.insertText_parted]

end Session

namespace Sitting

open Session

/-! ## Steps -/

variable {d : Sitting} {e : Event} {x y z : Text}

theorem exists_take_copy (h : d.session.Selects x z y) (he : e.command? d.session = some .copy)
    (hworks : d.world.clipboard.works = true) :
    ∃ status scroll, (d.take e).session = { d.session with status, scroll } ∧
      (d.take e).world = { d.world with clipboard.content := some z } := by
  obtain ⟨status, hhandle⟩ := exists_handle_eq he d.world
  have hheard : Selects { d.session with status } x z y := h.of_eq rfl rfl
  obtain ⟨status', hcopy⟩ := hheard.exists_copy_eq hworks
  obtain ⟨scroll, hfollow⟩ := exists_follow_eq { d.session with status := status' }
  refine ⟨status', scroll, ?_⟩
  show (d.session.handle d.world e).1 = _ ∧ (d.session.handle d.world e).2 = _
  rw [hhandle, execute, perform, hcopy]
  exact ⟨hfollow, rfl⟩

theorem exists_take_erase (h : d.session.Selects x z y)
    (he : e.command? d.session = some .backspace ∨ e.command? d.session = some .delete) :
    ∃ status scroll, (d.take e).session =
      { d.session with buffer := .parted x y, anchor := none, dirty := true, status, scroll } ∧
      (d.take e).world = d.world := by
  obtain ⟨status, f, hhandle⟩ : ∃ status f,
      d.session.handle d.world e = (({ d.session with status }.erase f).follow, d.world) := by
    rcases he with he | he
    · obtain ⟨status, hhandle⟩ := exists_handle_eq he d.world
      exact ⟨status, _, hhandle⟩
    · obtain ⟨status, hhandle⟩ := exists_handle_eq he d.world
      exact ⟨status, _, hhandle⟩
  have hheard : Selects { d.session with status } x z y := h.of_eq rfl rfl
  obtain ⟨scroll, hfollow⟩ := exists_follow_eq ({ d.session with status }.erase f)
  refine ⟨status, scroll, ?_⟩
  show (d.session.handle d.world e).1 = _ ∧ (d.session.handle d.world e).2 = _
  rw [hhandle, hfollow, hheard.erase_eq]
  exact ⟨rfl, rfl⟩

/-- Whatever is selected in the text of a sitting: copying puts it into the clipboard and leaves the text and the
selection alone; erasing it then takes it away and nothing else, with the caret where it began; and pasting it
there, unless a `CR LF` is in it, gives the lines as they were, with the caret where it ended. -/
theorem cut_and_paste (t : Text) (path : Option Path) (settings : Settings) (w : World) (events : List Event) :
    let d := (start (.ofText t path settings) w).run events
    let b := d.session.buffer
    d.session.mode = .editing → d.world.clipboard.works = true → ∀ x ∈ d.session.selection,
      let first := b.offset x.start
      let last := b.offset x.stop
      let selected := (b.text.take last).drop first
      first < last ∧ last ≤ b.text.length ∧
      ∀ copying : Event, copying.command? d.session = some .copy →
        let copied := d.take copying
        copied.world = { d.world with clipboard.content := some selected } ∧
        copied.session.buffer = b ∧ copied.session.selection = some x ∧
        ∀ erasing : Event,
          erasing.command? copied.session = some .backspace ∨ erasing.command? copied.session = some .delete →
          let erased := copied.take erasing
          erased.session.buffer.text = b.text.take first ++ b.text.drop last ∧
          erased.session.buffer.caret = x.start ∧ erased.session.selection = none ∧ erased.session.dirty = true ∧
          erased.world = copied.world ∧
          (¬['\r', '\n'] <:+: selected →
            (erased.take (.paste selected)).session.buffer = { b with caret := x.stop }) := by
  intro d b hmode hworks x hx first last selected
  have hsound : d.session.Sound := (sound_ofText t path settings).run events
  obtain ⟨u, z, v, h⟩ := hsound.exists_selects hx
  obtain rfl : x = ⟨.after u, .after (u ++ z)⟩ := Option.some.inj (hx.symm.trans h.selection)
  have hselected : selected = z := h.between
  have hfront : b.text.take first = u := h.take_start
  have hback : b.text.drop last = v := h.drop_stop
  rw [hselected, hfront, hback]
  refine ⟨h.offset_lt, h.offset_stop_le, ?_⟩
  intro copying hcopying copied
  obtain ⟨status, scroll, hcopied, hworld⟩ := exists_take_copy h hcopying hworks
  have h' : copied.session.Selects u z v := h.of_eq (by rw [hcopied]) (by rw [hcopied])
  refine ⟨hworld, by rw [hcopied], h'.selection, ?_⟩
  intro erasing herasing erased
  obtain ⟨status', scroll', herased, hworld'⟩ := exists_take_erase h' herasing
  refine ⟨?_, by rw [herased]; rfl, by rw [herased]; rfl, by rw [herased], hworld', fun hz => ?_⟩
  · rw [herased]
    exact Buffer.text_parted u v
  · have hmode' : erased.session.mode = .editing := by
      rw [herased, hcopied]
      exact hmode
    have hpaste := buffer_paste hmode' (by rw [herased]) (by rw [herased]) hz
    show (erased.session.paste z).buffer = _
    rw [hpaste, Buffer.parted, h.lines]

/-- A selection over two lines that was made from its end. -/
theorem cut_and_paste_upwards :
    let w : World := ⟨⟨[], []⟩, [], {}⟩
    let d := (start (.ofText "aé\r\nxyz".toList none {}) w).run
      [.press { code := .down }, .press { code := .right }, .press { code := .right },
       .press { code := .up, shift := true }, .press { code := .left, shift := true }]
    let b := d.session.buffer
    let x : Selection := ⟨⟨0, 1⟩, ⟨1, 2⟩⟩
    let selected := (b.text.take (b.offset x.stop)).drop (b.offset x.start)
    let copied := d.take (.press { code := .char 'y', ctrl := true })
    let erased := copied.take (.press { code := .backspace })
    d.session.selection = some x ∧ b.caret = x.start ∧ selected = "é\nxy".toList ∧
    copied.world = { d.world with clipboard.content := some selected } ∧ copied.session.buffer = b ∧
    erased.session.buffer.text = "az".toList ∧ erased.session.buffer.caret = x.start ∧
    (erased.take (.paste selected)).session.buffer = { b with caret := x.stop } := by
  intro w d b x selected copied erased
  obtain ⟨-, -, hcopied⟩ := cut_and_paste "aé\r\nxyz".toList none {} w
    [.press { code := .down }, .press { code := .right }, .press { code := .right },
     .press { code := .up, shift := true }, .press { code := .left, shift := true }]
    (by decide) (by decide) x (by decide)
  obtain ⟨hworld, hbuffer, -, herased⟩ := hcopied (.press { code := .char 'y', ctrl := true }) (by decide)
  obtain ⟨htext, hcaret, -, -, -, hpasted⟩ := herased (.press { code := .backspace }) (.inl (by decide))
  have hparts : b.text.take (b.offset x.start) ++ b.text.drop (b.offset x.stop) = "az".toList := by decide
  have hreturn : ¬['\r', '\n'] <:+: selected := by decide
  refine ⟨by decide, by decide, by decide, ?_⟩
  -- What is left is what was obtained, word by word: no step of the run is to be computed again.
  with_reducible exact ⟨hworld, hbuffer, htext.trans hparts, hcaret, hpasted hreturn⟩

end Sitting

end Reflow
