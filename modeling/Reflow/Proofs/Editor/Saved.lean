import Reflow.Proofs.Editor.Drafts

/-!
# Nothing is lost unnoticed

While nothing is noted as unsaved, the text is the one that was saved last (`Sitting.Settled`).  Each event
keeps that: an edit is noted, and the note goes only when the text has been written.  A session that does not
end by force ends without the note, so its text has been saved (`Sitting.never_lost`).
-/

namespace Reflow

theorem Draft.Change.of_clean {d d' : Draft} (h : d.Change d') (hclean : d'.dirty = false) :
    d.dirty = false ∧ d'.buffer.text = d.buffer.text := by
  cases h with
  | keep => exact ⟨hclean, rfl⟩
  | deselect => exact ⟨hclean, rfl⟩
  | move p _ => exact ⟨hclean, rfl⟩
  | edit edits => cases hclean

namespace Sitting

variable {d : Sitting} {e : Event}

/-- While nothing is noted as unsaved, the text is the one that was saved last. -/
def Settled (d : Sitting) : Prop :=
  d.session.dirty = false → d.session.buffer.text = d.saved

theorem saved_take (d : Sitting) (e : Event) :
    (d.take e).saved = if d.session.saves d.world e then d.session.buffer.text else d.saved :=
  rfl

theorem take_of_saves (h : d.session.saves d.world e = true) :
    (d.take e).session.draft = { d.session.draft with dirty := false } ∧
    ∃ p, d.session.path = some p ∧
      (d.take e).world.files.readText p = .ok (d.session.lineEnding.apply d.session.buffer.text) := by
  obtain ⟨hasks, hok⟩ : e.asksToSave d.session = true ∧ (d.session.save d.world).isOk = true := by
    simpa [Session.saves] using h
  exact (d.session.handle_leads d.world e).saved hasks hok

/-- An event that asks in vain to save the text changes nothing there is to lose, and does not end the
session. -/
theorem take_of_not_saves (hasks : e.asksToSave d.session = true) (h : d.session.saves d.world e = false) :
    (d.take e).session.draft = d.session.draft ∧ (d.take e).session.finished = d.session.finished := by
  have hfail : (d.session.save d.world).isOk = false := by
    simpa [Session.saves, hasks] using h
  exact (d.session.handle_leads d.world e).failed hasks hfail

theorem Settled.take (hd : d.Settled) (e : Event) : (d.take e).Settled := by
  intro hclean
  rw [saved_take]
  cases hasks : e.asksToSave d.session with
  | false =>
    have hsaves : d.session.saves d.world e = false := by simp [Session.saves, hasks]
    obtain ⟨hclean', htext⟩ := ((d.session.handle_leads d.world e).changed hasks).of_clean hclean
    rw [hsaves, if_neg Bool.false_ne_true]
    exact htext.trans (hd hclean')
  | true =>
    cases hsaves : d.session.saves d.world e with
    | true =>
      rw [if_pos rfl]
      exact congrArg (fun draft => draft.buffer.text) (take_of_saves hsaves).1
    | false =>
      have hdraft := (take_of_not_saves hasks hsaves).1
      have hclean' : d.session.dirty = false := by
        rw [← hclean]
        exact congrArg Draft.dirty hdraft.symm
      rw [if_neg Bool.false_ne_true, ← hd hclean']
      exact congrArg (fun draft => draft.buffer.text) hdraft

theorem Settled.run (hd : d.Settled) (events : List Event) : (d.run events).Settled := by
  induction events generalizing d with
  | nil => exact hd
  | cons e events ih => exact ih (hd.take e)

theorem settled_start {s : Session} (w : World) : (start s w).Settled :=
  fun _ => rfl

theorem Settled.finished_take (hd : d.Settled) (hgoing : d.session.finished = false)
    (hfinished : (d.take e).session.finished = true) (hforced : e.forcesQuit d.session = false) :
    (d.take e).session.buffer.text = (d.take e).saved := by
  apply hd.take e
  rcases (d.session.handle_leads d.world e).finished with h | h | h
  · rw [show (d.session.handle d.world e).1.finished = true from hfinished, hgoing] at h
    cases h
  · rw [hforced] at h
    cases h
  · exact h

/-- Whatever happens in a sitting: while nothing is noted as unsaved, the text is the one that was saved last;
an event that ends the session leaves that text, unless it forces the end; an event that asks in vain to save
the text leaves the text, the caret, the selection and the note as they are and does not end the session; and
after one that saves it, the text is in its file. -/
theorem never_lost (s : Session) (w : World) (events : List Event) :
    let d := (start s w).run events
    (d.session.dirty = false → d.session.buffer.text = d.saved) ∧
    ∀ e,
      (d.session.finished = false → (d.take e).session.finished = true → e.forcesQuit d.session = false →
        (d.take e).session.buffer.text = (d.take e).saved) ∧
      (e.asksToSave d.session = true → d.session.saves d.world e = false →
        (d.take e).session.buffer = d.session.buffer ∧ (d.take e).session.selection = d.session.selection ∧
        (d.take e).session.dirty = d.session.dirty ∧ (d.take e).session.finished = d.session.finished) ∧
      (d.session.saves d.world e = true → (d.take e).session.buffer = d.session.buffer ∧
        ∃ p, d.session.path = some p ∧
          (d.take e).world.files.readText p = .ok (d.session.lineEnding.apply (d.take e).saved)) := by
  intro d
  have hd : d.Settled := (settled_start w).run events
  refine ⟨hd, fun e => ⟨hd.finished_take, ?_, ?_⟩⟩
  · intro hasks hsaves
    obtain ⟨hdraft, hfinished⟩ := take_of_not_saves hasks hsaves
    refine ⟨congrArg Draft.buffer hdraft, ?_, congrArg Draft.dirty hdraft, hfinished⟩
    rw [← Session.selection_draft, ← Session.selection_draft]
    exact congrArg Draft.selection hdraft
  · intro hsaves
    obtain ⟨hdraft, p, hp, hread⟩ := take_of_saves hsaves
    refine ⟨congrArg Draft.buffer hdraft, p, hp, ?_⟩
    rw [saved_take, if_pos hsaves]
    exact hread

theorem never_lost_typed :
    let s := Session.ofText "one\r\ntwo".toList (some "f".toList) {}
    let w : World := ⟨⟨[(["f".toList], .file "one".toList)], []⟩, [], {}⟩
    let d := (start s w).run [.execute (.insert 'x')]
    let d' := d.take (.find ⟨⟨[(["f".toList], .directory)], []⟩, [], {}⟩)
    let e := Event.runLine "wq".toList
    (d.take e).session.finished = true ∧ (d.take e).session.buffer.text = (d.take e).saved ∧
    (d.take e).world.files.readText "f".toList = .ok "xone\r\ntwo".toList ∧
    (d'.take e).session.finished = false ∧ (d'.take e).session.dirty = true ∧
    (d'.take e).session.buffer.text = "xone\ntwo".toList := by
  intro s w d d' e
  obtain ⟨hend, -, hsaved⟩ := (never_lost s w [.execute (.insert 'x')]).2 e
  obtain ⟨-, hfail, -⟩ :=
    (never_lost s w [.execute (.insert 'x'), .find ⟨⟨[(["f".toList], .directory)], []⟩, [], {}⟩]).2 e
  have hfinished : (d.take e).session.finished = true := by cbv
  obtain ⟨-, p, hp, hread⟩ := hsaved (by cbv)
  obtain ⟨hbuffer, -, hdirty, hgoing⟩ := hfail (by cbv) (by cbv)
  refine ⟨hfinished, hend (by cbv) hfinished (by cbv), ?_, hgoing.trans (by cbv), hdirty.trans (by cbv), ?_⟩
  · rw [← Option.some.inj ((show d.session.path = some "f".toList by cbv).symm.trans hp)] at hread
    exact hread.trans (by cbv)
  · exact (congrArg Buffer.text hbuffer).trans (by cbv)

end Sitting

end Reflow
