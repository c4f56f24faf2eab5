import Reflow.Proofs.Batch.Wrap
import Reflow.Proofs.Editor.Saved

/-!
# Wrapping by hand and as a batch

Opening a file, going down to a line, wrapping its paragraph and saving leaves in the file what wrapping
the text of the file at that line gives (`Sitting.exists_run_eq_wrapText`).
-/

namespace Reflow

theorem Batch.wrapScope_paragraphAt {t : Text} {n : Nat} (hn : n < (Text.lines t).length) (w : Wrapper)
    (p : Option Path) :
    wrapScope w (.paragraphAt n) p t = .ok ((Buffer.mk (Text.lines t) ⟨n, 0⟩).wrapParagraph w none).1.text := by
  have hlt : n < (Buffer.ofText t).lines.length := hn
  have hset : (Buffer.ofText t).setCaret ⟨n, 0⟩ = ⟨Text.lines t, ⟨n, 0⟩⟩ := by
    rw [Buffer.setCaret, Buffer.clamp_of_holds ⟨hlt, Nat.zero_le _⟩]
    rfl
  simp only [wrapScope]
  rw [if_pos hlt, hset]
  rfl

namespace Session

variable {fs : FileTree} {p : Path} {t : Text}

theorem ofFile_of_readText (h : fs.readText p = .ok t) (settings : Settings) :
    ofFile fs p settings = .ok (ofText t (some p) settings) := by
  have hcontains : fs.contains p = true := by
    rw [FileTree.contains, FileTree.find_eq_ok_iff.mpr (FileTree.readText_eq_ok_iff.mp h)]
    rfl
  rw [ofFile, if_pos hcontains, h]
  rfl

theorem options_ofText (t : Text) (p : Option Path) (settings : Settings) (o : BatchOptions) :
    (ofText t p settings).options = Batch.optionsFor settings { o with fallbackWidth := 80, prose := false } p :=
  rfl

theorem exists_execute_wrapParagraph {s : Session} {wrapper : Wrapper} (h : s.wrapper? = some wrapper) (w : World) :
    ∃ s', s.execute w .wrapParagraph = (s', w) ∧ s'.buffer = (s.buffer.wrapParagraph wrapper s.selection).1 ∧
      s'.path = s.path ∧ s'.lineEnding = s.lineEnding := by
  obtain ⟨scroll, hscroll⟩ := exists_follow_eq (s.wrapBy Buffer.wrapParagraph)
  refine ⟨_, rfl, ?_⟩
  show (s.wrapBy Buffer.wrapParagraph).follow.buffer = _ ∧ _
  rw [hscroll, wrapBy, h]
  simp only
  split <;> exact ⟨rfl, rfl, rfl⟩

theorem saves_of_readText {s : Session} {w : World} (hpath : s.path = some p) (h : w.files.readText p = .ok t) :
    s.saves w (.execute .save) = true := by
  obtain ⟨place, hplace, hfile⟩ := FileTree.readText_eq_ok_iff.mp h
  have hwrite := FileTree.writeText_of_get? hplace hfile (s.lineEnding.apply s.buffer.text)
  rw [saves, save, hpath]
  simp only [hwrite]
  rfl

theorem exists_execute_down {s : Session} {k : Nat} (hcaret : s.buffer.caret = ⟨k, 0⟩)
    (hk : k + 1 < s.buffer.lines.length) (w : World) :
    ∃ scroll, s.execute w (.move .down false) =
      ({ s with buffer := { s.buffer with caret := ⟨k + 1, 0⟩ }, anchor := none, scroll }, w) := by
  have htarget : s.target .down = ⟨k + 1, 0⟩ := by
    have hle : k + 1 ≤ s.buffer.lastLine := by
      rw [Buffer.lastLine]
      omega
    simp [target, hcaret, Nat.min_eq_left hle]
  have hclamp : s.buffer.clamp ⟨k + 1, 0⟩ = ⟨k + 1, 0⟩ :=
    Buffer.clamp_of_holds ⟨hk, Nat.zero_le _⟩
  obtain ⟨scroll, hscroll⟩ := exists_follow_eq (s.move .down false)
  refine ⟨scroll, ?_⟩
  show ((s.move .down false).follow, w) = _
  rw [hscroll, move, htarget, Buffer.setCaret, hclamp]
  rfl

end Session

namespace Sitting

theorem take_execute {s s' : Session} {w : World} {c : Command} (h : s.execute w c = (s', w))
    (hasks : (Event.execute c).asksToSave s = false) (saved : Text) :
    take ⟨s, w, saved⟩ (.execute c) = ⟨s', w, saved⟩ := by
  unfold take Session.handle Session.saves
  simp only [h, hasks]
  rfl

theorem exists_run_down (n : Nat) {s : Session} {k : Nat} (hcaret : s.buffer.caret = ⟨k, 0⟩)
    (hanchor : s.anchor = none) (hk : k + n < s.buffer.lines.length) (w : World) (saved : Text) :
    ∃ scroll, run ⟨s, w, saved⟩ (List.replicate n (.execute (.move .down false))) =
      ⟨{ s with buffer := { s.buffer with caret := ⟨k + n, 0⟩ }, scroll }, w, saved⟩ := by
  induction n generalizing s k with
  | zero =>
    refine ⟨s.scroll, ?_⟩
    rw [Nat.add_zero, ← hcaret]
    rfl
  | succ n ih =>
    obtain ⟨scroll, hdown⟩ := Session.exists_execute_down hcaret (by omega) w
    rw [List.replicate_succ, run, List.foldl_cons, take_execute hdown rfl, ← hanchor]
    have hk' : k + 1 + n < s.buffer.lines.length := by omega
    have h := ih (s := { s with buffer := { s.buffer with caret := ⟨k + 1, 0⟩ }, scroll }) rfl hanchor hk'
    rw [Nat.add_assoc, Nat.add_comm 1 n] at h
    exact h

/-- Opening a file, going down to one of its lines, wrapping the paragraph there and saving leaves in the file
what wrapping its text at that line as a batch does. -/
theorem exists_run_eq_wrapText {w : World} {p : Path} {t : Text} {n : Nat} (settings : Settings) (o : BatchOptions)
    (hread : w.files.readText p = .ok t) (hn : n < (Text.lines (LineEnding.normalize t)).length) :
    ∃ s out, Session.ofFile w.files p settings = .ok s ∧
      Batch.wrapText settings { o with scope := .paragraphAt n, fallbackWidth := 80, prose := false } (some p) t =
        .ok out ∧
      let d := (start s w).run
        (List.replicate n (.execute (.move .down false)) ++ [.execute .wrapParagraph, .execute .save])
      d.world.files.readText p = .ok out ∧ d.session.dirty = false := by
  let s := Session.ofText t (some p) settings
  obtain ⟨wrapper, hwrapper, hbatch⟩ := Batch.exists_wrapText_eq settings
    { o with scope := .paragraphAt n, fallbackWidth := 80, prose := false } (some p) t
  rw [← Session.options_ofText t (some p) settings { o with scope := .paragraphAt n }] at hwrapper
  have hscope := Batch.wrapScope_paragraphAt hn wrapper (some p)
  refine ⟨s, _, Session.ofFile_of_readText hread settings, by rw [hbatch, hscope]; rfl, ?_⟩
  intro d
  -- The line is reached.
  obtain ⟨scroll, hdown⟩ : ∃ scroll, (start s w).run (List.replicate n (.execute (.move .down false))) =
      ⟨{ s with buffer := { s.buffer with caret := ⟨n, 0⟩ }, scroll }, w, s.buffer.text⟩ := by
    have h := exists_run_down n (s := s) (k := 0) rfl rfl (by rw [Nat.zero_add]; exact hn) w s.buffer.text
    rw [Nat.zero_add] at h
    exact h
  -- Its paragraph is wrapped.
  obtain ⟨s', hwrap, hbuffer, hpath, hending⟩ := Session.exists_execute_wrapParagraph
    (s := { s with buffer := { s.buffer with caret := ⟨n, 0⟩ }, scroll }) hwrapper w
  have hd : d = (Sitting.mk s' w s.buffer.text).take (.execute .save) := by
    show (start s w).run _ = _
    rw [run_append, hdown]
    show (take ⟨_, w, s.buffer.text⟩ (.execute .wrapParagraph)).take (.execute .save) = _
    rw [take_execute hwrap rfl]
  -- It is saved.
  have hsaves := Session.saves_of_readText hpath hread
  obtain ⟨hdraft, q, hq, hsaved⟩ := take_of_saves (d := ⟨s', w, s.buffer.text⟩) hsaves
  obtain rfl : p = q := Option.some.inj (hpath.symm.trans hq)
  rw [hd]
  refine ⟨hsaved.trans ?_, congrArg Draft.dirty hdraft⟩
  rw [hending, hbuffer]
  rfl

theorem exists_run_eq_wrapText_crlf :
    let w : World := ⟨⟨[(["f".toList], .file "a\r\n\r\nbb cc".toList)], []⟩, [], {}⟩
    ∃ s out, Session.ofFile w.files "f".toList { width := some 4 } = .ok s ∧
      Batch.wrapText { width := some 4 } { scope := .paragraphAt 2 } (some "f".toList) "a\r\n\r\nbb cc".toList =
        .ok out ∧
      out = "a\r\n\r\nbb\r\ncc".toList ∧
      ((start s w).run [.execute (.move .down false), .execute (.move .down false), .execute .wrapParagraph,
        .execute .save]).world.files.readText "f".toList = .ok out := by
  have hwrapped : Batch.wrapText { width := some 4 } { scope := .paragraphAt 2 } (some "f".toList)
      "a\r\n\r\nbb cc".toList = .ok "a\r\n\r\nbb\r\ncc".toList := by cbv
  intro w
  obtain ⟨s, out, hs, hout, hread, -⟩ := exists_run_eq_wrapText (w := w) (p := "f".toList)
    (t := "a\r\n\r\nbb cc".toList) (n := 2) { width := some 4 } {} (by decide) (by decide)
  exact ⟨s, out, hs, hout, Except.ok.inj (hout.symm.trans hwrapped), hread⟩

end Sitting

end Reflow
