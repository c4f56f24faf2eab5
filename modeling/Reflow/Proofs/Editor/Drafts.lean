import Reflow.Proofs.Buffer.Edits
import Reflow.Proofs.Editor.Sitting
import Reflow.Proofs.Files.Tree

/-!
# Drafts

A draft is what there is to lose in a session: the text with the caret and the selection, and the note that
something is not saved.  An event either asks to save the text, and then it does that or leaves the draft as
it is, or it changes the draft in one of a few ways (`Session.handle_leads`).
-/

namespace Reflow

/-! ## Ways of wrapping -/

/-- A way of wrapping either leaves the buffer as it is and says so, or replaces a part of the text. -/
def Wraps (f : Buffer → Wrapper → Option Selection → Buffer × WrapOutcome) : Prop :=
  ∀ b w selection, f b w selection = (b, .unchanged) ∨
    ∃ selected t first last, f b w selection = ((b.replace selected t).1, .wrapped first last)

theorem wrapIn_cases (b : Buffer) (w : Wrapper) (s : Selection) : b.wrapIn w s = (b, .unchanged) ∨
    ∃ selected t first last, b.wrapIn w s = ((b.replace selected t).1, .wrapped first last) := by
  unfold Buffer.wrapIn
  simp only
  split
  · exact .inl rfl
  · exact .inr ⟨s, _, _, _, rfl⟩

theorem wraps_selection : Wraps Buffer.wrapSelection :=
  fun b w _ => wrapIn_cases b w _

theorem wraps_paragraph : Wraps Buffer.wrapParagraph := by
  intro b w selection
  unfold Buffer.wrapParagraph
  split
  · exact wrapIn_cases b w _
  · split
    · exact wrapIn_cases b w _
    · exact .inl rfl

/-! ## Drafts and their changes -/

/-- What there is to lose in a session. -/
structure Draft where
  buffer : Buffer
  /-- Where the selection began. -/
  anchor : Option Position
  /-- Whether there are edits that are not saved. -/
  dirty : Bool

def Draft.selection (d : Draft) : Option Selection :=
  ((d.anchor.map fun anchor => ⟨anchor, d.buffer.caret⟩).filter fun x => !x.isEmpty).map Selection.normalized

/-- What can be done to a draft but saving it.  Edits end the selection and are noted. -/
inductive Draft.Change : Draft → Draft → Prop
  | keep (d : Draft) : Change d d
  | deselect (d : Draft) : Change d { d with anchor := none }
  | move (d : Draft) (p : Position) {anchor : Option Position}
      (h : anchor = none ∨ anchor = d.anchor.or (some d.buffer.caret)) :
      Change d ⟨d.buffer.setCaret p, anchor, d.dirty⟩
  | edit (d : Draft) (edits : List Edit) : Change d ⟨d.buffer.run edits, none, true⟩

namespace Session

variable {s s' : Session} {w w' : World}

def draft (s : Session) : Draft :=
  ⟨s.buffer, s.anchor, s.dirty⟩

theorem selection_draft (s : Session) : s.draft.selection = s.selection :=
  rfl

theorem exists_follow_eq (s : Session) : ∃ scroll, s.follow = { s with scroll } := by
  unfold follow
  simp only
  split
  · exact ⟨_, rfl⟩
  · split
    · exact ⟨_, rfl⟩
    · exact ⟨s.scroll, rfl⟩

theorem draft_follow (s : Session) : s.follow.draft = s.draft := by
  obtain ⟨scroll, h⟩ := s.exists_follow_eq
  rw [h]
  rfl

theorem finished_follow (s : Session) : s.follow.finished = s.finished := by
  obtain ⟨scroll, h⟩ := s.exists_follow_eq
  rw [h]

theorem change_move (s : Session) (m : Motion) (extend : Bool) : s.draft.Change (s.move m extend).draft := by
  apply Draft.Change.move s.draft (s.target m)
  cases extend with
  | false => exact .inl rfl
  | true => exact .inr rfl

theorem change_edit (s : Session) {f : Buffer → Buffer} (edits : List Edit) (hf : ∀ b, f b = b.run edits) :
    s.draft.Change (s.edit f).draft := by
  have hedit := Draft.Change.edit s.draft
  unfold edit
  cases s.selection with
  | none =>
    simp only [hf]
    exact hedit edits
  | some selected =>
    simp only [hf]
    exact hedit (.replace selected [] :: edits)

theorem change_erase (s : Session) {f : Buffer → Buffer} (e : Edit) (hf : ∀ b, f b = b.edit e) :
    s.draft.Change (s.erase f).draft := by
  unfold erase
  split
  · exact s.change_edit [] fun _ => rfl
  · exact s.change_edit [e] hf

theorem change_wrapBy {f : Buffer → Wrapper → Option Selection → Buffer × WrapOutcome} (hf : Wraps f) (s : Session) :
    s.draft.Change (s.wrapBy f).draft := by
  unfold wrapBy
  split
  · exact .keep s.draft
  · rename_i wrapper _
    rcases hf s.buffer wrapper s.selection with h | ⟨selected, t, first, last, h⟩
    · rw [h]
      exact .deselect s.draft
    · rw [h]
      exact .edit s.draft [.replace selected t]

/-! ## Steps -/

/-- What a step can do.  A step that asks to save the text either writes it to its file and notes that, or
leaves the draft as it is; another step may change the draft.  The session ends only if nothing is lost, unless
that is forced. -/
structure Leads (s : Session) (w : World) (asks forced : Bool) (s' : Session) (w' : World) : Prop where
  changed : asks = false → s.draft.Change s'.draft
  saved : asks = true → (s.save w).isOk = true → s'.draft = { s.draft with dirty := false } ∧
    ∃ p, s.path = some p ∧ w'.files.readText p = .ok (s.lineEnding.apply s.buffer.text)
  failed : asks = true → (s.save w).isOk = false → s'.draft = s.draft ∧ s'.finished = s.finished
  finished : s'.finished = s.finished ∨ forced = true ∨ s'.dirty = false

namespace Leads

variable {forced : Bool}

theorem of_change (h : s.draft.Change s'.draft) (hfinished : s'.finished = s.finished) :
    s.Leads w false forced s' w' :=
  ⟨fun _ => h, nofun, nofun, .inl hfinished⟩

theorem of_draft (h : s'.draft = s.draft) (hfinished : s'.finished = s.finished) : s.Leads w false forced s' w' := by
  refine of_change ?_ hfinished
  rw [h]
  exact .keep _

theorem of_error {e : Error} (hsave : s.save w = .error e) (h : s'.draft = s.draft)
    (hfinished : s'.finished = s.finished) : s.Leads w true forced s' w' := by
  refine ⟨nofun, ?_, fun _ _ => ⟨h, hfinished⟩, .inl hfinished⟩
  intro _ hok
  rw [hsave] at hok
  cases hok

theorem of_ok {r : Session × World} {p : Path} (hsave : s.save w = .ok r)
    (h : s'.draft = { s.draft with dirty := false }) (hpath : s.path = some p)
    (hread : w'.files.readText p = .ok (s.lineEnding.apply s.buffer.text)) : s.Leads w true forced s' w' := by
  refine ⟨nofun, fun _ _ => ⟨h, p, hpath, hread⟩, ?_, .inr (.inr (congrArg Draft.dirty h))⟩
  intro _ hok
  rw [hsave] at hok
  cases hok

end Leads

theorem save_cases (s : Session) (w : World) : (∃ e, s.save w = .error e) ∨
    ∃ p files, s.path = some p ∧ files.readText p = .ok (s.lineEnding.apply s.buffer.text) ∧
      s.save w = .ok ({ s with dirty := false }, { w with files }) := by
  unfold save
  cases s.path with
  | none => exact .inl ⟨_, rfl⟩
  | some p =>
    cases hwrite : w.files.writeText p (s.lineEnding.apply s.buffer.text) with
    | error e => exact .inl ⟨e, by simp [hwrite, bind, Except.bind]⟩
    | ok files =>
      refine .inr ⟨p, files, rfl, FileTree.readText_writeText hwrite, ?_⟩
      simp [hwrite, bind, Except.bind, pure, Except.pure]

theorem saveAloud_leads (s : Session) (w : World) (forced : Bool) :
    s.Leads w true forced (s.saveAloud w).1 (s.saveAloud w).2 := by
  unfold saveAloud
  rcases s.save_cases w with ⟨e, h⟩ | ⟨p, files, hp, hread, h⟩
  · rw [h]
    exact .of_error h rfl rfl
  · rw [h]
    exact .of_ok h rfl hp hread

theorem quit_leads (s : Session) (w : World) (force : Bool) : s.Leads w false force (s.quit force) w := by
  unfold quit
  cases hdirty : s.dirty && !force with
  | true => exact .of_draft rfl rfl
  | false =>
    refine ⟨fun _ => .keep _, nofun, nofun, ?_⟩
    cases force with
    | true => exact .inr (.inl rfl)
    | false => exact .inr (.inr (by simpa using hdirty))

theorem copy_leads (s : Session) (w : World) (forced : Bool) : s.Leads w false forced (s.copy w).1 (s.copy w).2 := by
  unfold copy
  simp only
  split <;> exact .of_draft rfl rfl

theorem saveSettings_leads (s : Session) (w : World) (forced : Bool) :
    s.Leads w false forced (s.saveSettings w).1 (s.saveSettings w).2 := by
  unfold saveSettings
  simp only
  split <;> exact .of_draft rfl rfl

theorem finished_wrapBy (s : Session) (f : Buffer → Wrapper → Option Selection → Buffer × WrapOutcome) :
    (s.wrapBy f).finished = s.finished := by
  unfold wrapBy
  split
  · rfl
  · simp only
    split <;> rfl

theorem finished_erase (s : Session) (f : Buffer → Buffer) : (s.erase f).finished = s.finished := by
  unfold erase
  split <;> rfl

theorem writeQuit_leads (s : Session) (w : World) (forced : Bool) :
    let r := match s.save w with
      | .ok (s, w) => (s.quit false, w)
      | .error e => (s.sayError e, w)
    s.Leads w true forced r.1 r.2 := by
  intro r
  rcases s.save_cases w with ⟨e, h⟩ | ⟨p, files, hp, hread, h⟩
  · simp only [r, h]
    exact .of_error h rfl rfl
  · simp only [r, h]
    exact .of_ok h rfl hp hread

theorem runLine_leads (s : Session) (w : World) (t : Text) :
    s.Leads w (CommandLine.read t).asksToSave (CommandLine.read t = .quit true) (s.runLine w t).1
      (s.runLine w t).2 := by
  unfold runLine
  cases CommandLine.read t with
  | write => exact s.saveAloud_leads w _
  | quit force =>
    have hforced : decide (CommandLine.quit force = .quit true) = force := by cases force <;> rfl
    rw [hforced]
    exact s.quit_leads w force
  | writeQuit => exact s.writeQuit_leads w _
  | wrap => exact .of_change (change_wrapBy wraps_paragraph s) (s.finished_wrapBy _)
  | saveSettings => exact s.saveSettings_leads w _
  | _ => exact .of_draft rfl rfl

/-- Only the draft, the file and the style of line endings count for what a step leads to. -/
theorem Leads.of_alike {r : Session} {asks forced : Bool} (h : r.Leads w asks forced s' w')
    (hdraft : r.draft = s.draft) (hpath : r.path = s.path) (hending : r.lineEnding = s.lineEnding)
    (hfinished : r.finished = s.finished) : s.Leads w asks forced s' w' := by
  have hbuffer : r.buffer = s.buffer := congrArg Draft.buffer hdraft
  have hsave : (s.save w).isOk = (r.save w).isOk := by
    unfold save
    rw [hpath, hending, hbuffer]
    cases s.path with
    | none => rfl
    | some p =>
      simp only [bind, Except.bind]
      split <;> rfl
  refine ⟨?_, ?_, ?_, ?_⟩
  · rw [← hdraft]
    exact h.changed
  · rw [hsave, ← hdraft, ← hpath, ← hending, ← hbuffer]
    exact h.saved
  · rw [hsave, ← hdraft, ← hfinished]
    exact h.failed
  · rw [← hfinished]
    exact h.finished

theorem perform_leads (s : Session) (w : World) (c : Command) :
    s.Leads w (c.asksToSave s) (c.line? s = some (.quit true)) (s.perform w c).1 (s.perform w c).2 := by
  cases c with
  | move m extend => exact .of_change (s.change_move m extend) rfl
  | insert c => exact .of_change (s.change_edit [.insert c] fun _ => rfl) rfl
  | newline => exact .of_change (s.change_edit [.insert '\n'] fun _ => rfl) rfl
  | backspace => exact .of_change (s.change_erase .deleteBackward fun _ => rfl) (s.finished_erase _)
  | delete => exact .of_change (s.change_erase .deleteForward fun _ => rfl) (s.finished_erase _)
  | wrapParagraph => exact .of_change (change_wrapBy wraps_paragraph s) (s.finished_wrapBy _)
  | wrapSelection => exact .of_change (change_wrapBy wraps_selection s) (s.finished_wrapBy _)
  | copy => exact s.copy_leads w _
  | save => exact s.saveAloud_leads w _
  | quit => exact s.quit_leads w false
  | commandSubmit =>
    have h := runLine_leads { s with commandLine := [], mode := .editing } w s.commandLine
    have hasks : Command.commandSubmit.asksToSave s = (CommandLine.read s.commandLine).asksToSave := by
      simp [Command.asksToSave, Command.line?]
    have hforced : decide (Command.commandSubmit.line? s = some (.quit true)) =
        decide (CommandLine.read s.commandLine = .quit true) := by
      simp [Command.line?]
    rw [hasks, hforced]
    exact h.of_alike rfl rfl rfl rfl
  | _ => exact .of_draft rfl rfl

theorem execute_leads (s : Session) (w : World) (c : Command) :
    s.Leads w (c.asksToSave s) (c.line? s = some (.quit true)) (s.execute w c).1 (s.execute w c).2 := by
  have h := s.perform_leads w c
  have hdraft : (s.execute w c).1.draft = (s.perform w c).1.draft := draft_follow _
  have hfinished : (s.execute w c).1.finished = (s.perform w c).1.finished := finished_follow _
  have hdirty : (s.execute w c).1.dirty = (s.perform w c).1.dirty := congrArg Draft.dirty hdraft
  refine ⟨?_, ?_, ?_, ?_⟩
  · rw [hdraft]
    exact h.changed
  · rw [hdraft]
    exact h.saved
  · rw [hdraft, hfinished]
    exact h.failed
  · rw [hfinished, hdirty]
    exact h.finished

theorem paste_leads (s : Session) (w : World) (t : Text) : s.Leads w false false (s.paste t) w := by
  unfold paste
  cases s.mode with
  | editing =>
    refine .of_change ?_ (finished_follow _)
    rw [draft_follow]
    exact s.change_edit [.insertText (LineEnding.normalize t)] fun _ => rfl
  | command => exact .of_draft rfl rfl

/-- The session that a key finds: one in the text takes the message away. -/
def heard (s : Session) : Session :=
  { s with status := if s.mode = .editing then none else s.status }

theorem press_eq (s : Session) (w : World) (key : Key) :
    s.press w key =
      if s.helpShown then ({ s with helpShown := false }, w)
      else
        match key.response s.mode s.commandLine with
        | .ignored => (s.heard, w)
        | .run c => s.heard.execute w c
        | .enter mode => ({ s.heard with mode, commandLine := [] }, w)
        | .help => ({ s.heard with helpShown := true }, w) := by
  have hheard : (if s.mode = .editing then { s with status := none } else s) = s.heard := by
    unfold heard
    split <;> rfl
  unfold press
  rw [hheard]
  rfl

theorem press_leads (s : Session) (w : World) (key : Key) :
    s.Leads w ((Event.press key).asksToSave s) ((Event.press key).forcesQuit s) (s.press w key).1
      (s.press w key).2 := by
  rw [press_eq]
  unfold Event.asksToSave Event.forcesQuit Event.line? Event.command?
  by_cases hhelp : s.helpShown
  · simp only [hhelp, if_true]
    exact .of_draft rfl rfl
  · simp only [hhelp, Bool.false_eq_true, if_false]
    -- Only the message is another one for the key.
    refine Leads.of_alike (r := s.heard) ?_ rfl rfl rfl rfl
    cases key.response s.mode s.commandLine with
    | run c =>
      have h := s.heard.execute_leads w c
      have hline : c.line? s.heard = c.line? s := by cases c <;> rfl
      simpa [Command.asksToSave, hline] using h
    | _ => exact .of_draft rfl rfl

theorem handle_leads (s : Session) (w : World) (e : Event) :
    s.Leads w (e.asksToSave s) (e.forcesQuit s) (s.handle w e).1 (s.handle w e).2 := by
  cases e with
  | press key => exact s.press_leads w key
  | paste t => exact s.paste_leads w t
  | execute c =>
    have hasks : (Event.execute c).asksToSave s = c.asksToSave s := by
      simp [Event.asksToSave, Event.line?, Event.command?, Command.asksToSave]
    rw [hasks]
    exact s.execute_leads w c
  | runLine t =>
    have hforced : (Event.runLine t).forcesQuit s = decide (CommandLine.read t = .quit true) := by
      simp [Event.forcesQuit, Event.line?]
    rw [hforced]
    exact s.runLine_leads w t
  | resize viewport => exact .of_draft rfl rfl
  | find w' => exact .of_draft rfl rfl

end Session

end Reflow
