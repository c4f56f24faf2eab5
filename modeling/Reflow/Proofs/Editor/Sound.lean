import Reflow.Proofs.Editor.Drafts

/-!
# Sound sessions

The buffer of a sound session is well-formed and the selection begins in it.  Sessions begin sound, and each
event keeps that (`Session.Sound.handle`).  What a sound session shows as selected is a stretch of its
text, and where an event scrolls, the line of the caret is visible after it.
-/

namespace Reflow

theorem Position.isBefore_of_not {p q : Position} (hne : p ≠ q) (h : q.isBefore p = false) : p.isBefore q = true := by
  obtain ⟨line, column⟩ := p
  obtain ⟨line', column'⟩ := q
  simp only [ne_eq, mk.injEq] at hne
  simp only [isBefore, Bool.or_eq_false_iff, Bool.and_eq_false_iff, decide_eq_false_iff_not] at h
  simp only [isBefore, Bool.or_eq_true, Bool.and_eq_true, decide_eq_true_eq]
  omega

theorem Draft.Change.wellFormed {d d' : Draft} (h : d.Change d') (hbuffer : d.buffer.WellFormed) :
    d'.buffer.WellFormed := by
  cases h with
  | keep => exact hbuffer
  | deselect => exact hbuffer
  | edit edits => exact hbuffer.run edits
  | move p hfrom => exact hbuffer.run [.setCaret p]

theorem Draft.Change.sound {d d' : Draft} (h : d.Change d') (hbuffer : d.buffer.WellFormed)
    (hanchor : ∀ p ∈ d.anchor, d.buffer.Holds p) : d'.buffer.WellFormed ∧ ∀ p ∈ d'.anchor, d'.buffer.Holds p := by
  refine ⟨h.wellFormed hbuffer, ?_⟩
  cases h with
  | keep => exact hanchor
  | deselect => nofun
  | edit edits => nofun
  | move p hfrom =>
    intro q hq
    show d.buffer.Holds q
    rcases hfrom with rfl | rfl
    · cases hq
    · rcases Option.or_eq_some_iff.mp hq with hq | ⟨-, hq⟩
      · exact hanchor q hq
      · rw [← Option.some.inj hq]
        exact hbuffer.caret

/-- Whether an event has the session scroll to the caret: it runs a command, or pastes into the text. -/
def Event.scrolls (s : Session) (e : Event) : Bool :=
  match e with
  | paste _ => s.mode = .editing
  | e => (e.command? s).isSome

namespace Session

/-- The buffer is well-formed, and the selection begins in it. -/
structure Sound (s : Session) : Prop where
  buffer : s.buffer.WellFormed
  anchor : ∀ p ∈ s.anchor, s.buffer.Holds p

variable {s s' : Session} {w : World} {x : Selection}

theorem sound_ofText (t : Text) (p : Option Path) (settings : Settings) : (ofText t p settings).Sound :=
  ⟨Buffer.wellFormed_parted [] (LineEnding.normalize t), nofun⟩

/-- Whatever an event does, the text, the caret and the selection change in one of the few ways of a draft. -/
theorem exists_change_handle (s : Session) (w : World) (e : Event) :
    ∃ d, s.draft.Change d ∧ (s.handle w e).1.buffer = d.buffer ∧ (s.handle w e).1.anchor = d.anchor := by
  have hleads := s.handle_leads w e
  cases hasks : e.asksToSave s with
  | false => exact ⟨_, hleads.changed hasks, rfl, rfl⟩
  | true =>
    cases hok : (s.save w).isOk with
    | true =>
      have hdraft := (hleads.saved hasks hok).1
      exact ⟨_, .keep _, congrArg Draft.buffer hdraft, congrArg Draft.anchor hdraft⟩
    | false =>
      have hdraft := (hleads.failed hasks hok).1
      exact ⟨_, .keep _, congrArg Draft.buffer hdraft, congrArg Draft.anchor hdraft⟩

theorem wellFormed_run {d : Sitting} (h : d.session.buffer.WellFormed) (events : List Event) :
    (d.run events).session.buffer.WellFormed := by
  induction events generalizing d with
  | nil => exact h
  | cons e events ih =>
    obtain ⟨draft, hchange, hbuffer, -⟩ := d.session.exists_change_handle d.world e
    apply ih
    show (d.session.handle d.world e).1.buffer.WellFormed
    rw [hbuffer]
    exact hchange.wellFormed h

namespace Sound

theorem handle (h : s.Sound) (w : World) (e : Event) : (s.handle w e).1.Sound := by
  obtain ⟨d, hchange, hbuffer, hanchor⟩ := s.exists_change_handle w e
  obtain ⟨hbuffer', hanchor'⟩ := hchange.sound h.buffer h.anchor
  refine ⟨?_, ?_⟩
  · rw [hbuffer]
    exact hbuffer'
  · rw [hbuffer, hanchor]
    exact hanchor'

theorem run {d : Sitting} (h : d.session.Sound) (events : List Event) : (d.run events).session.Sound := by
  induction events generalizing d with
  | nil => exact h
  | cons e events ih => exact ih (h.handle d.world e)

theorem lines_ne_nil (h : s.Sound) : s.buffer.lines ≠ [] := by
  rw [h.buffer.lines]
  exact Text.lines_ne_nil

theorem not_mem_line (h : s.Sound) {line : Text} (hline : line ∈ s.buffer.lines) : '\n' ∉ line := by
  rw [h.buffer.lines] at hline
  exact Text.not_mem_of_mem_lines hline

theorem selection (h : s.Sound) (hx : s.selection = some x) :
    x.start.isBefore x.stop = true ∧ s.buffer.Holds x.start ∧ s.buffer.Holds x.stop := by
  obtain ⟨p, hp, hne, rfl⟩ : ∃ p, s.anchor = some p ∧ p ≠ s.buffer.caret ∧
      x = (Selection.mk p s.buffer.caret).normalized := by
    unfold Session.selection at hx
    cases hp : s.anchor with
    | none => simp [hp] at hx
    | some p =>
      by_cases hne : p = s.buffer.caret
      · simp [hp, hne, Selection.isEmpty] at hx
      · simp [hp, hne, Selection.isEmpty, Option.filter] at hx
        exact ⟨p, rfl, hne, hx.symm⟩
  have hanchor := h.anchor p hp
  unfold Selection.normalized
  split
  next hbefore => exact ⟨hbefore, h.buffer.caret, hanchor⟩
  next hbefore => exact ⟨Position.isBefore_of_not hne (by simpa using hbefore), hanchor, h.buffer.caret⟩

end Sound

/-! ## Scrolling -/

/-- The line of the caret is visible. -/
def Visible (s : Session) : Prop :=
  s.scroll ≤ s.buffer.caret.line ∧ s.buffer.caret.line < s.scroll + max s.viewport 1

theorem visible_follow (s : Session) : s.follow.Visible := by
  unfold follow Visible page
  simp only
  split
  next h =>
    simp only
    omega
  next h =>
    split
    · simp only
      omega
    · omega

theorem visible_handle {e : Event} (h : e.scrolls s = true) (w : World) : (s.handle w e).1.Visible := by
  cases e with
  | execute c => exact visible_follow _
  | paste t =>
    have hmode : s.mode = .editing := of_decide_eq_true h
    show (s.paste t).Visible
    rw [paste, hmode]
    exact visible_follow _
  | press key =>
    show (s.press w key).1.Visible
    rw [press_eq]
    by_cases hhelp : s.helpShown
    · simp [Event.scrolls, Event.command?, hhelp] at h
    · simp only [Event.scrolls, Event.command?, hhelp, Bool.false_eq_true, if_false] at h ⊢
      cases hresponse : key.response s.mode s.commandLine with
      | run c => exact visible_follow _
      | _ => simp [hresponse] at h
  | runLine t => cases h
  | resize viewport => cases h
  | find w' => cases h

end Session

end Reflow
