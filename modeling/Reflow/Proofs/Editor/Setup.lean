import Reflow.Proofs.Editor.Drafts

/-!
# Setups

A setup is what edits and command lines leave alone in a session: its file and how the lines of it end, the
mode with the command line that is being typed, and the screen.  All commands but those of typing a command
line keep it (`Session.setup_execute`), and no event changes the file or how its lines end (`Session.SameFile.run`).
-/

namespace Reflow

/-- What edits and command lines leave alone. -/
structure Setup where
  path : Option Path
  lineEnding : LineEnding
  mode : Mode
  commandLine : Text
  helpShown : Bool
  viewport : Nat

def Command.isTyping : Command → Bool
  | commandChar _ | commandBackspace | commandSubmit => true
  | _ => false

theorem Key.isTyping_of_inText {key : Key} {c : Command} (h : key.inText = .run c) : c.isTyping = false := by
  unfold inText at h
  cases hcode : key.code with
  | char a =>
    simp only [hcode, character] at h
    split_ifs at h
    all_goals
      cases h
      rfl
  | escape => simp [hcode] at h
  | function n => simp [hcode] at h
  | other => simp [hcode] at h
  | _ =>
    simp only [hcode, Response.run.injEq] at h
    rw [← h]
    rfl

namespace Session

variable {s s' : Session} {w w' : World}

def setup (s : Session) : Setup :=
  ⟨s.path, s.lineEnding, s.mode, s.commandLine, s.helpShown, s.viewport⟩

theorem setup_follow (s : Session) : s.follow.setup = s.setup := by
  obtain ⟨scroll, h⟩ := s.exists_follow_eq
  rw [h]
  rfl

theorem setup_erase (s : Session) (f : Buffer → Buffer) : (s.erase f).setup = s.setup := by
  unfold erase
  split <;> rfl

theorem setup_wrapBy (s : Session) (f : Buffer → Wrapper → Option Selection → Buffer × WrapOutcome) :
    (s.wrapBy f).setup = s.setup := by
  unfold wrapBy
  split
  · rfl
  · simp only
    split <;> rfl

theorem setup_quit (s : Session) (force : Bool) : (s.quit force).setup = s.setup := by
  unfold quit
  split <;> rfl

theorem setup_saveAloud (s : Session) (w : World) : (s.saveAloud w).1.setup = s.setup := by
  unfold saveAloud
  rcases s.save_cases w with ⟨e, h⟩ | ⟨p, files, -, -, h⟩
  · rw [h]
    rfl
  · rw [h]
    rfl

theorem setup_writeQuit (s : Session) (w : World) :
    (match s.save w with
      | .ok (s, w) => (s.quit false, w)
      | .error e => (s.sayError e, w)).1.setup = s.setup := by
  rcases s.save_cases w with ⟨e, h⟩ | ⟨p, files, -, -, h⟩
  · rw [h]
    rfl
  · rw [h]
    exact setup_quit { s with dirty := false } false

theorem setup_copy (s : Session) (w : World) : (s.copy w).1.setup = s.setup := by
  unfold copy
  simp only
  split <;> rfl

theorem setup_saveSettings (s : Session) (w : World) : (s.saveSettings w).1.setup = s.setup := by
  unfold saveSettings
  simp only
  split <;> rfl

theorem setup_runLine (s : Session) (w : World) (t : Text) : (s.runLine w t).1.setup = s.setup := by
  unfold runLine
  cases CommandLine.read t with
  | write => exact s.setup_saveAloud w
  | quit force => exact s.setup_quit force
  | writeQuit => exact s.setup_writeQuit w
  | wrap => exact s.setup_wrapBy _
  | saveSettings => exact s.setup_saveSettings w
  | _ => rfl

theorem setup_perform (s : Session) (w : World) {c : Command} (h : c.isTyping = false) :
    (s.perform w c).1.setup = s.setup := by
  cases c with
  | backspace => exact s.setup_erase _
  | delete => exact s.setup_erase _
  | wrapParagraph => exact s.setup_wrapBy _
  | wrapSelection => exact s.setup_wrapBy _
  | copy => exact s.setup_copy w
  | save => exact s.setup_saveAloud w
  | quit => exact s.setup_quit false
  | commandChar c => cases h
  | commandBackspace => cases h
  | commandSubmit => cases h
  | _ => rfl

theorem setup_execute (s : Session) (w : World) {c : Command} (h : c.isTyping = false) :
    (s.execute w c).1.setup = s.setup :=
  (setup_follow _).trans (s.setup_perform w h)

/-! ## The file of a session -/

/-- The sessions have the same file with the same line endings. -/
structure SameFile (s s' : Session) : Prop where
  path : s'.path = s.path
  lineEnding : s'.lineEnding = s.lineEnding

namespace SameFile

theorem of_setup (h : s'.setup = s.setup) : s.SameFile s' :=
  ⟨congrArg Setup.path h, congrArg Setup.lineEnding h⟩

theorem trans {s'' : Session} (h : s.SameFile s') (h' : s'.SameFile s'') : s.SameFile s'' :=
  ⟨h'.path.trans h.path, h'.lineEnding.trans h.lineEnding⟩

theorem perform (s : Session) (w : World) (c : Command) : s.SameFile (s.perform w c).1 := by
  cases htyping : c.isTyping with
  | false => exact of_setup (s.setup_perform w htyping)
  | true =>
    cases c with
    | commandSubmit =>
      have h := of_setup (setup_runLine { s with commandLine := [], mode := .editing } w s.commandLine)
      exact ⟨h.path, h.lineEnding⟩
    | commandChar c => exact ⟨rfl, rfl⟩
    | commandBackspace => exact ⟨rfl, rfl⟩
    | _ => cases htyping

theorem execute (s : Session) (w : World) (c : Command) : s.SameFile (s.execute w c).1 :=
  (perform s w c).trans (of_setup (setup_follow _))

theorem handle (s : Session) (w : World) (e : Event) : s.SameFile (s.handle w e).1 := by
  cases e with
  | press key =>
    show s.SameFile (s.press w key).1
    rw [press_eq]
    split
    · exact ⟨rfl, rfl⟩
    · cases key.response s.mode s.commandLine with
      | run c =>
        have h := execute s.heard w c
        exact ⟨h.path, h.lineEnding⟩
      | _ => exact ⟨rfl, rfl⟩
  | paste t =>
    show s.SameFile (s.paste t)
    unfold paste
    split
    · exact of_setup (setup_follow _)
    · exact ⟨rfl, rfl⟩
  | execute c => exact execute s w c
  | runLine t => exact of_setup (s.setup_runLine w t)
  | resize viewport => exact ⟨rfl, rfl⟩
  | find w' => exact ⟨rfl, rfl⟩

theorem run (d : Sitting) (events : List Event) : d.session.SameFile (d.run events).session := by
  induction events generalizing d with
  | nil => exact ⟨rfl, rfl⟩
  | cons e events ih => exact (handle d.session d.world e).trans (ih (d.take e))

end SameFile

end Session

end Reflow
