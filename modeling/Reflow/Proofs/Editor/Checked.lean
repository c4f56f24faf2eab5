import Reflow.Proofs.Buffer.Checked
import Reflow.Proofs.Editor.Sound

/-!
# Checked steps

The steps of a session on checked edits: they fail where a line would be looked up that is not there, or a
difference would be negative.  On a sound session, whose buffer is well-formed and whose selection begins in it,
no step fails (`Session.handle?_eq`).
-/

namespace Reflow

namespace Session

/-! ## Moving -/

def target? (s : Session) (m : Motion) : Option Position :=
  let b := s.buffer
  let ⟨line, column⟩ := b.caret
  match m with
  | .left =>
    if 0 < column then return ⟨line, ← minus? column 1⟩
    else if 0 < line then do
      let above ← minus? line 1
      return ⟨above, b.lineLength above⟩
    else return ⟨line, column⟩
  -- The other motions stop at the ends of the text by themselves.
  | m => s.target m

def move? (s : Session) (m : Motion) (extend : Bool) : Option Session := do
  let p ← s.target? m
  return { s with
    buffer := s.buffer.setCaret p
    anchor := if extend then s.anchor.or (some s.buffer.caret) else none }

def follow? (s : Session) : Option Session :=
  let line := s.buffer.caret.line
  if line < s.scroll then return { s with scroll := line }
  else if s.scroll + s.page ≤ line then return { s with scroll := ← minus? (line + 1) s.page }
  else return s

/-! ## Editing -/

def edit? (s : Session) (f : Buffer → Option Buffer) : Option Session := do
  let cleared ←
    match s.selection with
    | some selected => (s.buffer.replace? selected []).map Prod.fst
    | none => some s.buffer
  return { s with buffer := ← f cleared, anchor := none, dirty := true }

def erase? (s : Session) (f : Buffer → Option Buffer) : Option Session :=
  if s.selection.isSome then s.edit? some else s.edit? f

def wrapBy? (s : Session) (f : Buffer → Wrapper → Option Selection → Option (Buffer × WrapOutcome)) : Option Session :=
  match s.wrapper? with
  | none => s.sayError .pattern
  | some w => do
    let r ← f s.buffer w s.selection
    return s.wrapBy fun _ _ _ => r

def copy? (s : Session) (w : World) : Option (Session × World) := do
  let line := s.buffer.caret.line
  let t ← s.buffer.textIn? (s.selection.getD (.ofLines s.buffer.lines line line))
  match w.copy t with
  | .ok w => return (s.say s!"Copied {t.length} characters", w)
  | .error e => return (s.sayError e, w)

/-! ## Commands -/

/-- Of the command lines, only the wrapping one works on the buffer. -/
def runLine? (s : Session) (w : World) (t : Text) : Option (Session × World) :=
  match CommandLine.read t with
  | .wrap => (s.wrapBy? Buffer.wrapParagraph?).map (·, w)
  | _ => s.runLine w t

def perform? (s : Session) (w : World) (c : Command) : Option (Session × World) :=
  match c with
  | .move m extend => (s.move? m extend).map (·, w)
  | .insert c => (s.edit? fun b => b.insert? c).map (·, w)
  | .newline => (s.edit? fun b => b.insert? '\n').map (·, w)
  | .backspace => (s.erase? Buffer.deleteBackward?).map (·, w)
  | .delete => (s.erase? Buffer.deleteForward?).map (·, w)
  | .wrapParagraph => (s.wrapBy? Buffer.wrapParagraph?).map (·, w)
  | .wrapSelection => (s.wrapBy? Buffer.wrapSelection?).map (·, w)
  | .copy => s.copy? w
  | .commandSubmit => { s with commandLine := [], mode := .editing }.runLine? w s.commandLine
  -- The other commands leave the buffer alone.
  | c => s.perform w c

def execute? (s : Session) (w : World) (c : Command) : Option (Session × World) := do
  let (s, w) ← s.perform? w c
  return (← s.follow?, w)

/-! ## Input -/

def press? (s : Session) (w : World) (key : Key) : Option (Session × World) :=
  if s.helpShown then return ({ s with helpShown := false }, w)
  else
    match key.response s.mode s.commandLine with
    | .run c => s.heard.execute? w c
    | _ => s.press w key

def paste? (s : Session) (t : Text) : Option Session :=
  match s.mode with
  | .editing => do
    let s ← s.edit? fun b => b.insertText? (LineEnding.normalize t)
    s.follow?
  | .command => s.paste t

/-- What comes of an event, in checked steps. -/
def handle? (s : Session) (w : World) : Event → Option (Session × World)
  | .press key => s.press? w key
  | .paste t => (s.paste? t).map (·, w)
  | .execute c => s.execute? w c
  | .runLine t => s.runLine? w t
  | e => s.handle w e

/-! ## No step fails -/

variable {s : Session}

theorem target?_eq (s : Session) (m : Motion) : s.target? m = some (s.target m) := by
  unfold target? target
  cases m with
  | left =>
    by_cases hcolumn : 0 < s.buffer.caret.column
    · simp [hcolumn, minus?_of_le hcolumn]
    · by_cases hpos : 0 < s.buffer.caret.line
      · simp [hcolumn, hpos, minus?_of_le hpos]
      · simp [hcolumn, hpos]
  | _ => rfl

theorem move?_eq (s : Session) (m : Motion) (extend : Bool) : s.move? m extend = some (s.move m extend) := by
  rw [move?, target?_eq]
  rfl

theorem follow?_eq (s : Session) : s.follow? = some s.follow := by
  unfold follow? follow
  simp only
  split
  · rfl
  · split
    next h =>
      have hle : s.page ≤ s.buffer.caret.line + 1 := by omega
      rw [minus?_of_le hle]
      rfl
    next => rfl

theorem edit?_eq (h : s.Sound) {f : Buffer → Buffer} {f? : Buffer → Option Buffer}
    (hf : ∀ b, b.WellFormed → f? b = some (f b)) : s.edit? f? = some (s.edit f) := by
  unfold edit? edit
  cases s.selection with
  | none =>
    simp only
    rw [Option.bind_eq_bind, Option.bind_some, hf _ h.buffer]
    rfl
  | some selected =>
    have hcleared : (s.buffer.replace selected []).1.WellFormed := h.buffer.run [.replace selected []]
    simp only [Buffer.replace?_eq h.lines_ne_nil]
    rw [Option.bind_eq_bind, Option.map_some, Option.bind_some, hf _ hcleared]
    rfl

theorem erase?_eq (h : s.Sound) {f : Buffer → Buffer} {f? : Buffer → Option Buffer}
    (hf : ∀ b, b.WellFormed → f? b = some (f b)) : s.erase? f? = some (s.erase f) := by
  unfold erase? erase
  split
  · exact edit?_eq h fun _ _ => rfl
  · exact edit?_eq h hf

theorem wrapBy?_eq {f : Buffer → Wrapper → Option Selection → Buffer × WrapOutcome}
    {f? : Buffer → Wrapper → Option Selection → Option (Buffer × WrapOutcome)}
    (hf : ∀ w selection, f? s.buffer w selection = some (f s.buffer w selection)) :
    s.wrapBy? f? = some (s.wrapBy f) := by
  unfold wrapBy? wrapBy
  cases s.wrapper? with
  | none => rfl
  | some w =>
    simp only [hf]
    rfl

theorem copy?_eq (h : s.Sound) (w : World) : s.copy? w = some (s.copy w) := by
  unfold copy? copy
  simp only [Buffer.textIn?_eq h.lines_ne_nil]
  rw [Option.bind_eq_bind, Option.bind_some]
  generalize s.buffer.textIn _ = t
  cases w.copy t <;> rfl

theorem runLine?_eq (h : s.Sound) (w : World) (t : Text) : s.runLine? w t = some (s.runLine w t) := by
  unfold runLine?
  split
  next hread =>
    rw [wrapBy?_eq fun w selection => Buffer.wrapParagraph?_eq h.lines_ne_nil w selection, runLine, hread]
    rfl
  next => rfl

theorem perform?_eq (h : s.Sound) (w : World) (c : Command) : s.perform? w c = some (s.perform w c) := by
  have hne := h.lines_ne_nil
  cases c with
  | move m extend => exact congrArg (Option.map (·, w)) (s.move?_eq m extend)
  | insert c => exact congrArg (Option.map (·, w)) (edit?_eq h fun b hb => Buffer.insert?_eq hb.caret c)
  | newline => exact congrArg (Option.map (·, w)) (edit?_eq h fun b hb => Buffer.insert?_eq hb.caret '\n')
  | backspace => exact congrArg (Option.map (·, w)) (erase?_eq h fun b hb => Buffer.deleteBackward?_eq hb.caret)
  | delete => exact congrArg (Option.map (·, w)) (erase?_eq h fun b hb => Buffer.deleteForward?_eq hb.caret)
  | wrapParagraph => exact congrArg (Option.map (·, w)) (wrapBy?_eq (Buffer.wrapParagraph?_eq hne))
  | wrapSelection => exact congrArg (Option.map (·, w)) (wrapBy?_eq (Buffer.wrapSelection?_eq hne))
  | copy => exact copy?_eq h w
  | commandSubmit =>
    exact runLine?_eq (s := { s with commandLine := [], mode := .editing }) ⟨h.buffer, h.anchor⟩ w s.commandLine
  | _ => rfl

theorem execute?_eq (h : s.Sound) (w : World) (c : Command) : s.execute? w c = some (s.execute w c) := by
  rw [execute?, perform?_eq h, Option.bind_eq_bind, Option.bind_some]
  simp only [follow?_eq]
  rfl

theorem press?_eq (h : s.Sound) (w : World) (key : Key) : s.press? w key = some (s.press w key) := by
  rw [press?, press_eq]
  split
  · rfl
  · cases key.response s.mode s.commandLine with
    | run c => exact execute?_eq (s := s.heard) ⟨h.buffer, h.anchor⟩ w c
    | _ => rfl

theorem paste?_eq (h : s.Sound) (t : Text) : s.paste? t = some (s.paste t) := by
  unfold paste?
  split
  next hmode =>
    rw [edit?_eq h fun b hb => Buffer.insertText?_eq hb _, Option.bind_eq_bind, Option.bind_some, follow?_eq, paste,
      hmode]
  next => rfl

/-- No step of a sound session fails. -/
theorem handle?_eq (h : s.Sound) (w : World) (e : Event) : s.handle? w e = some (s.handle w e) := by
  cases e with
  | press key => exact press?_eq h w key
  | paste t => rw [handle?, paste?_eq h]; rfl
  | execute c => exact execute?_eq h w c
  | runLine t => exact runLine?_eq h w t
  | _ => rfl

end Session

/-! ## Runs -/

/-- Whatever happens in a sitting: there is at least one line, and no line feed in any; the caret and the start of
the selection are in the text, so what is selected is a stretch of it with its earlier end first; no next step
looks up a line that is not there or gets below zero; and where the next one scrolls, the line of the caret is
visible after it. -/
theorem Sitting.sound_run (t : Text) (path : Option Path) (settings : Settings) (w : World) (events : List Event) :
    let d := (start (.ofText t path settings) w).run events
    let b := d.session.buffer
    b.lines ≠ [] ∧ (∀ line ∈ b.lines, '\n' ∉ line) ∧ b.Holds b.caret ∧ (∀ p ∈ d.session.anchor, b.Holds p) ∧
    (∀ x ∈ d.session.selection, x.start.isBefore x.stop = true ∧ b.Holds x.start ∧ b.Holds x.stop) ∧
    ∀ e, d.session.handle? d.world e = some (d.session.handle d.world e) ∧
      (e.scrolls d.session = true → (d.take e).session.Visible) := by
  intro d b
  have h : d.session.Sound := (Session.sound_ofText t path settings).run events
  refine ⟨h.lines_ne_nil, fun line => h.not_mem_line, h.buffer.caret, h.anchor, fun x hx => h.selection hx, fun e => ?_⟩
  exact ⟨Session.handle?_eq h d.world e, fun hscrolls => Session.visible_handle hscrolls d.world⟩

theorem Sitting.sound_run_selected :
    let d := (start (.ofText "ab\ncd".toList none {}) ⟨⟨[], []⟩, [], {}⟩).run
      [.resize 1, .press { code := .lineEnd }, .press { code := .down, shift := true }]
    let e := Event.press { code := .backspace }
    d.session.scroll = 1 ∧ '\n' ∉ "cd".toList ∧ d.session.buffer.Holds ⟨0, 2⟩ ∧ d.session.buffer.Holds ⟨1, 2⟩ ∧
    (⟨0, 2⟩ : Position).isBefore ⟨1, 2⟩ = true ∧ (d.session.handle? d.world e).isSome = true ∧
    (d.take e).session.buffer.lines = ["ab".toList] ∧ (d.take e).session.Visible := by
  intro d e
  obtain ⟨-, hfeeds, -, hanchor, hselected, hnext⟩ := sound_run "ab\ncd".toList none {} ⟨⟨[], []⟩, [], {}⟩
    [.resize 1, .press { code := .lineEnd }, .press { code := .down, shift := true }]
  obtain ⟨hbefore, -, hstop⟩ := hselected ⟨⟨0, 2⟩, ⟨1, 2⟩⟩ (by decide)
  obtain ⟨hhandle, hvisible⟩ := hnext e
  refine ⟨by decide, hfeeds _ (by decide), hanchor ⟨0, 2⟩ (by decide), hstop, hbefore, ?_, by decide,
    hvisible (by decide)⟩
  rw [hhandle]
  rfl

end Reflow
