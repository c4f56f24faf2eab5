import Reflow.Proofs.Editor.Agreement
import Reflow.Proofs.Editor.Setup
import Reflow.Proofs.Editor.Sound
import Reflow.Proofs.Text.LineEnding

/-!
# Saving and opening again

A text that was saved is read back from its file unless it is saved with line feeds and has a carriage return
before one of them, and a file whose text was not changed is written as it was just if its lines end alike
(`Sitting.save_and_reopen`).
-/

namespace Reflow

theorem Buffer.WellFormed.noReturns_iff {b : Buffer} (h : b.WellFormed) :
    LineEnding.NoReturns b.text ↔ ∀ line ∈ b.lines.dropLast, line.getLast? ≠ some '\r' := by
  rw [h.lines]
  rfl

namespace Session

variable {s : Session} {w : World} {p : Path} {t : Text}

theorem text_ofText (t : Text) (path : Option Path) (settings : Settings) :
    (ofText t path settings).buffer.text = LineEnding.normalize t :=
  Text.ofLines_lines _

theorem readText_of_save {r : Session × World} (h : s.save w = .ok r) :
    ∃ p, s.path = some p ∧ r.2.files.readText p = .ok (s.lineEnding.apply s.buffer.text) := by
  rcases s.save_cases w with ⟨e, herror⟩ | ⟨p, files, hp, hread, hok⟩
  · cases h.symm.trans herror
  · obtain rfl := Except.ok.inj (h.symm.trans hok)
    exact ⟨p, hp, hread⟩

theorem reopen_iff (hbuffer : s.buffer.WellFormed) {r : Session × World} (h : s.save w = .ok r) (settings : Settings) :
    ∃ p opened, s.path = some p ∧ ofFile r.2.files p settings = .ok opened ∧
      (opened.buffer.text = s.buffer.text ↔
        s.lineEnding = .crlf ∨ ∀ line ∈ s.buffer.lines.dropLast, line.getLast? ≠ some '\r') := by
  obtain ⟨p, hp, hread⟩ := readText_of_save h
  refine ⟨p, _, hp, ofFile_of_readText hread settings, ?_⟩
  rw [text_ofText, LineEnding.normalize_apply_iff, hbuffer.noReturns_iff]

theorem resave_iff (hpath : s.path = some p) (hending : s.lineEnding = .detect t)
    (htext : s.buffer.text = LineEnding.normalize t) {u : Text} (hread : w.files.readText p = .ok u) :
    ∃ r, s.save w = .ok r ∧ (r.2.files.readText p = .ok t ↔ LineEnding.Homogeneous t) := by
  have hsaves := saves_of_readText hpath hread
  rcases s.save_cases w with ⟨e, herror⟩ | ⟨q, files, hq, hwritten, hok⟩
  · rw [saves, herror] at hsaves
    cases hsaves
  · obtain rfl := Option.some.inj (hpath.symm.trans hq)
    refine ⟨_, hok, ?_⟩
    show files.readText p = .ok t ↔ _
    rw [hwritten, hending, htext, ← LineEnding.apply_detect_normalize_iff]
    exact ⟨Except.ok.inj, congrArg Except.ok⟩

end Session

namespace Sitting

open Session

/-- Whatever happens in a sitting that begins with a well-formed buffer: opening a file after the text was saved
to it gives the text, unless it was saved with line feeds and a line but the last ends in a carriage return.  And
a file can be opened if it can be read; when its text is saved without having been changed, the file is as it was
just if all its line feeds come after carriage returns or none does. -/
theorem save_and_reopen :
    (∀ (s : Session) (w : World) (events : List Event), s.buffer.WellFormed →
      let d := (start s w).run events
      ∀ r, d.session.save d.world = .ok r → ∀ settings, ∃ p opened,
        d.session.path = some p ∧ ofFile r.2.files p settings = .ok opened ∧
        (opened.buffer.text = d.session.buffer.text ↔ d.session.lineEnding = .crlf ∨
          ∀ line ∈ d.session.buffer.lines.dropLast, line.getLast? ≠ some '\r')) ∧
    ∀ (w : World) (p : Path) (t : Text) (settings : Settings), w.files.readText p = .ok t →
      ∃ opened, ofFile w.files p settings = .ok opened ∧ ∀ events,
        let d := (start opened w).run events
        d.session.buffer.text = opened.buffer.text → ∀ u, d.world.files.readText p = .ok u →
          ∃ r, d.session.save d.world = .ok r ∧ (r.2.files.readText p = .ok t ↔ LineEnding.Homogeneous t) := by
  refine ⟨?_, ?_⟩
  · intro s w events hbuffer d r hsave settings
    exact reopen_iff (wellFormed_run (d := start s w) hbuffer events) hsave settings
  · intro w p t settings hread
    refine ⟨_, ofFile_of_readText hread settings, ?_⟩
    intro events d htext u hu
    have hsame : (ofText t (some p) settings).SameFile d.session := SameFile.run (start _ w) events
    rw [text_ofText] at htext
    exact resave_iff hsame.path hsame.lineEnding htext hu

theorem save_and_reopen_returns :
    let w : World := ⟨⟨[(["f".toList], .file "a\r\r\nb\r\n\r".toList)], []⟩, [], {}⟩
    let s := ofText "a\r\r\nb\r\n\r".toList (some "f".toList) {}
    let d := (start s w).run [.execute .newline]
    s.buffer.text = "a\r\nb\n\r".toList ∧ d.session.buffer.text = "\na\r\nb\n\r".toList ∧
    (∃ r, s.save w = .ok r ∧ r.2.files.readText "f".toList = .ok "a\r\r\nb\r\n\r".toList) ∧
    ∃ r opened, d.session.save d.world = .ok r ∧ ofFile r.2.files "f".toList {} = .ok opened ∧
      opened.buffer.text = d.session.buffer.text := by
  intro w s d
  have hread : w.files.readText "f".toList = .ok "a\r\r\nb\r\n\r".toList := by decide
  refine ⟨by cbv, by cbv, ?_, ?_⟩
  · obtain ⟨opened, hopened, hsaved⟩ := save_and_reopen.2 w "f".toList "a\r\r\nb\r\n\r".toList {} hread
    obtain rfl : s = opened := Except.ok.inj ((ofFile_of_readText hread {}).symm.trans hopened)
    obtain ⟨r, hr, hiff⟩ := hsaved [] rfl _ hread
    exact ⟨r, hr, hiff.mpr (.inl (by decide))⟩
  · have hbuffer : s.buffer.WellFormed := (sound_ofText _ _ _).buffer
    cases hsave : d.session.save d.world with
    | error e =>
      have hok : (d.session.save d.world).isOk = true := by cbv
      rw [hsave] at hok
      cases hok
    | ok r =>
      obtain ⟨p, opened, hp, hopened, hiff⟩ := save_and_reopen.1 s w [.execute .newline] hbuffer r hsave {}
      obtain rfl : "f".toList = p := Option.some.inj ((show d.session.path = some "f".toList by cbv).symm.trans hp)
      exact ⟨r, opened, rfl, hopened, hiff.mpr (.inl (by cbv))⟩

end Sitting

end Reflow
