import Reflow.Proofs.Editor.Setup
import Reflow.Proofs.Editor.Sound

/-!
# The two modes

While a command line is being typed, keys and pasted texts change nothing else, up to the key that submits it.
What it does then is what running it at once does (`Sitting.modes_apart`).

Every command of typing scrolls to the caret, too.  That changes nothing as long as the caret has been in
view, so a sitting in which only keys are pressed and texts are pasted keeps to that (`Session.Composed`).
-/

namespace Reflow

/-- Whether an event is a key or a text that is pasted, or comes from the world outside. -/
def Event.isInput : Event → Bool
  | press _ | paste _ | find _ => true
  | _ => false

theorem Key.everywhere_cases (key : Key) : key.everywhere = .help ∨ key.everywhere = .ignored := by
  unfold everywhere
  split
  · exact .inl rfl
  · exact .inr rfl

theorem Key.asks_of_response {key : Key} {mode : Mode} {line : Text} {c : Command}
    (h : key.response mode line = .run c) :
    (match mode with
      | .editing => key.inText
      | .command => key.inCommandLine line) = .run c := by
  unfold response at h
  rcases key.everywhere_cases with heverywhere | heverywhere
  · rw [heverywhere] at h
    cases h
  · rw [heverywhere] at h
    exact h

theorem Key.mode_of_isTyping {key : Key} {mode : Mode} {line : Text} {c : Command}
    (h : key.response mode line = .run c) (hc : c.isTyping = true) : mode = .command := by
  cases mode with
  | command => rfl
  | editing =>
    rw [isTyping_of_inText (asks_of_response h)] at hc
    cases hc

theorem Key.run_of_command {key : Key} {line : Text} {c : Command} (h : key.response .command line = .run c)
    (hkey : key.code ≠ .enter) : c = .commandBackspace ∨ ∃ a, c = .commandChar a := by
  have hrun : key.inCommandLine line = .run c := asks_of_response h
  unfold inCommandLine at hrun
  cases hcode : key.code with
  | enter => exact absurd hcode hkey
  | backspace =>
    simp only [hcode] at hrun
    split at hrun
    · cases hrun
    · cases hrun
      exact .inl rfl
  | char a =>
    simp only [hcode] at hrun
    split at hrun
    · cases hrun
    · cases hrun
      exact .inr ⟨a, rfl⟩
  | _ =>
    simp only [hcode] at hrun
    cases hrun

namespace Session

variable {s : Session} {w : World}

/-! ## What holds between two keys -/

/-- There is a command line only while it is typed, and the caret is in view. -/
structure Composed (s : Session) : Prop where
  line : s.mode = .editing → s.commandLine = []
  visible : s.Visible

theorem Visible.follow_eq (h : s.Visible) : s.follow = s := by
  obtain ⟨hlow, hhigh⟩ := h
  unfold follow page
  simp only
  rw [if_neg (Nat.not_lt.mpr hlow), if_neg (Nat.not_le.mpr hhigh)]

namespace Composed

theorem follow (h : s.setup.mode = .editing → s.setup.commandLine = []) : s.follow.Composed := by
  refine ⟨?_, visible_follow s⟩
  show s.follow.setup.mode = .editing → s.follow.setup.commandLine = []
  rw [setup_follow]
  exact h

theorem execute (h : s.Composed) (w : World) {c : Command} (hc : c.isTyping = true → s.mode = .command) :
    (s.execute w c).1.Composed := by
  cases htyping : c.isTyping with
  | false =>
    refine ⟨?_, visible_follow (s.perform w c).1⟩
    show (s.execute w c).1.setup.mode = .editing → (s.execute w c).1.setup.commandLine = []
    rw [s.setup_execute w htyping]
    exact h.line
  | true =>
    refine follow (s := (s.perform w c).1) ?_
    have hcommand := hc htyping
    cases c with
    | commandSubmit => exact fun _ => congrArg Setup.commandLine (setup_runLine _ w s.commandLine)
    | commandChar c => exact fun hmode => nomatch hcommand.symm.trans hmode
    | commandBackspace => exact fun hmode => nomatch hcommand.symm.trans hmode
    | _ => cases htyping

theorem press (h : s.Composed) (w : World) (key : Key) : (s.press w key).1.Composed := by
  have hheard : s.heard.Composed := ⟨h.line, h.visible⟩
  rw [press_eq]
  split
  · exact ⟨h.line, h.visible⟩
  · cases hresponse : key.response s.mode s.commandLine with
    | run c => exact hheard.execute w fun hc => Key.mode_of_isTyping hresponse hc
    | ignored => exact hheard
    | enter mode => exact ⟨fun _ => rfl, h.visible⟩
    | help => exact ⟨h.line, h.visible⟩

theorem paste (h : s.Composed) (t : Text) : (s.paste t).Composed := by
  unfold Session.paste
  split
  next hmode => exact follow h.line
  next hmode =>
    refine ⟨fun hediting => ?_, h.visible⟩
    rw [show s.mode = .editing from hediting] at hmode
    cases hmode

theorem handle (h : s.Composed) (w : World) {e : Event} (he : e.isInput = true) : (s.handle w e).1.Composed := by
  cases e with
  | press key => exact h.press w key
  | paste t => exact h.paste t
  | find w' => exact h
  | _ => cases he

theorem run {d : Sitting} {events : List Event} (h : d.session.Composed) (hevents : ∀ e ∈ events, e.isInput = true) :
    (d.run events).session.Composed := by
  induction events generalizing d with
  | nil => exact h
  | cons e events ih =>
    rw [List.forall_mem_cons] at hevents
    exact ih (h.handle d.world hevents.1) hevents.2

end Composed

theorem composed_ofText (t : Text) (path : Option Path) (settings : Settings) (viewport : Nat) :
    Composed { ofText t path settings with viewport } := by
  refine ⟨fun _ => rfl, Nat.zero_le _, ?_⟩
  show 0 < 0 + max viewport 1
  omega

/-! ## While a command line is typed -/

theorem heard_of_command (hmode : s.mode = .command) : s.heard = s := by
  have hstatus : (if s.mode = .editing then none else s.status) = s.status := if_neg (by rw [hmode]; decide)
  rw [heard, hstatus]

theorem Composed.execute_commandChar (h : s.Composed) (w : World) (c : Char) :
    s.execute w (.commandChar c) = ({ s with commandLine := s.commandLine ++ [c] }, w) :=
  congrArg (·, w) (Visible.follow_eq (s := { s with commandLine := s.commandLine ++ [c] }) h.visible)

theorem Composed.execute_commandBackspace (h : s.Composed) (w : World) :
    s.execute w .commandBackspace = ({ s with commandLine := s.commandLine.dropLast }, w) :=
  congrArg (·, w) (Visible.follow_eq (s := { s with commandLine := s.commandLine.dropLast }) h.visible)

/-- A key changes nothing but the mode, the command line and the help, unless it submits the command line. -/
theorem Composed.exists_press_eq (h : s.Composed) (hmode : s.mode = .command) {key : Key} (hkey : key.code ≠ .enter)
    (w : World) :
    ∃ mode commandLine helpShown, s.press w key = ({ s with mode, commandLine, helpShown }, w) := by
  rw [press_eq, heard_of_command hmode]
  split
  · exact ⟨_, _, _, rfl⟩
  · rw [hmode]
    cases hresponse : key.response .command s.commandLine with
    | ignored => exact ⟨_, _, _, rfl⟩
    | enter mode => exact ⟨_, _, _, rfl⟩
    | help => exact ⟨_, _, true, rfl⟩
    | run c =>
      rcases Key.run_of_command hresponse hkey with rfl | ⟨a, rfl⟩
      · exact ⟨_, _, _, h.execute_commandBackspace w⟩
      · exact ⟨_, _, _, h.execute_commandChar w a⟩

theorem paste_of_command (hmode : s.mode = .command) (t : Text) :
    s.paste t = { s with commandLine := s.commandLine ++ firstLine t } := by
  unfold paste
  rw [hmode]

/-! ## Typing a command line -/

/-- What the key of a character does to a command line, which has an implied colon in front. -/
def typeChar (line : Text) (c : Char) : Text :=
  if line.isEmpty && c = ':' then line else line ++ [c]

theorem foldl_typeChar_of_ne_nil {line : Text} (hline : line ≠ []) (t : Text) : t.foldl typeChar line = line ++ t := by
  induction t generalizing line with
  | nil => simp
  | cons c t ih =>
    have htyped : typeChar line c = line ++ [c] := by simp [typeChar, hline]
    rw [List.foldl_cons, htyped, ih (by simp), List.append_assoc, List.singleton_append]

theorem foldl_typeChar (t : Text) : t.foldl typeChar [] = t.dropWhile (· = ':') := by
  induction t with
  | nil => rfl
  | cons c t ih =>
    by_cases hc : c = ':'
    · rw [List.foldl_cons, List.dropWhile_cons_of_pos (by simpa using hc), ← ih, hc]
      rfl
    · have htyped : typeChar [] c = [c] := by simp [typeChar, hc]
      rw [List.foldl_cons, List.dropWhile_cons_of_neg (by simpa using hc), htyped,
        foldl_typeChar_of_ne_nil (List.cons_ne_nil _ _)]
      rfl

theorem Composed.press_char (h : s.Composed) (hmode : s.mode = .command) (hhelp : s.helpShown = false) (w : World)
    (c : Char) :
    s.press w { code := .char c } = ({ s with commandLine := typeChar s.commandLine c }, w) := by
  have hresponse : Key.response { code := .char c } s.mode s.commandLine =
      if s.commandLine.isEmpty && c = ':' then .ignored else .run (.commandChar c) := by
    rw [hmode]
    rfl
  rw [press_eq, heard_of_command hmode, if_neg (by simp [hhelp]), hresponse, typeChar]
  by_cases hcolon : (s.commandLine.isEmpty && c = ':') = true
  · rw [if_pos hcolon, if_pos hcolon]
  · rw [if_neg hcolon, if_neg hcolon]
    exact h.execute_commandChar w c

theorem press_escape (hmode : s.mode = .editing) (hhelp : s.helpShown = false) (w : World) :
    s.press w { code := .escape } = ({ s with status := none, mode := .command, commandLine := [] }, w) := by
  have hresponse : Key.response { code := .escape } s.mode s.commandLine = .enter .command := by
    rw [hmode]
    rfl
  have hheard : s.heard = { s with status := none } := by
    rw [heard, if_pos hmode]
  rw [press_eq, if_neg (by simp [hhelp]), hresponse, hheard]

theorem press_enter (hmode : s.mode = .command) (hhelp : s.helpShown = false) (w : World) :
    s.press w { code := .enter } =
      let ran := { s with commandLine := [], mode := .editing }.runLine w s.commandLine
      (ran.1.follow, ran.2) := by
  have hresponse : Key.response { code := .enter } s.mode s.commandLine = .run .commandSubmit := by
    rw [hmode]
    rfl
  rw [press_eq, heard_of_command hmode, if_neg (by simp [hhelp]), hresponse]
  rfl

theorem Composed.closed_eq (h : s.Composed) (hmode : s.mode = .editing) :
    { s with commandLine := [], mode := .editing } = s := by
  rw [← hmode, ← h.line hmode]

end Session

namespace Sitting

open Session

def typing (t : Text) : List Event :=
  t.map fun c => .press { code := .char c }

theorem run_typing (t : Text) {d : Sitting} (h : d.session.Composed) (hmode : d.session.mode = .command)
    (hhelp : d.session.helpShown = false) :
    (d.run (typing t)).session = { d.session with commandLine := t.foldl typeChar d.session.commandLine } ∧
    (d.run (typing t)).world = d.world := by
  induction t generalizing d with
  | nil => exact ⟨rfl, rfl⟩
  | cons c t ih =>
    have hpress := h.press_char hmode hhelp d.world c
    have htaken : (d.take (.press { code := .char c })).session =
        { d.session with commandLine := typeChar d.session.commandLine c } := congrArg Prod.fst hpress
    have hworld : (d.take (.press { code := .char c })).world = d.world := congrArg Prod.snd hpress
    have hnext : (d.take (.press { code := .char c })).session.Composed := h.press d.world { code := .char c }
    obtain ⟨hsession, hrest⟩ := ih hnext (by rw [htaken]; exact hmode) (by rw [htaken]; exact hhelp)
    show ((d.take (.press { code := .char c })).run (typing t)).session = _ ∧
      ((d.take (.press { code := .char c })).run (typing t)).world = _
    rw [hsession, hrest, htaken, hworld]
    exact ⟨rfl, rfl⟩

/-- Typing a command line and submitting it is running it, without the colons at its start. -/
theorem run_submitted {d : Sitting} (h : d.session.Composed) (hmode : d.session.mode = .editing)
    (hhelp : d.session.helpShown = false) (line : Text) :
    let d' := d.run (.press { code := .escape } :: (typing line ++ [.press { code := .enter }]))
    let ran := { d.session with status := none }.runLine d.world (line.dropWhile (· = ':'))
    d'.session = ran.1.follow ∧ d'.world = ran.2 := by
  intro d' ran
  -- The command line is opened.
  let opened := d.take (.press { code := .escape })
  have hescape := press_escape hmode hhelp d.world
  have hopened : opened.session = { d.session with status := none, mode := .command, commandLine := [] } :=
    congrArg Prod.fst hescape
  have hworld : opened.world = d.world := congrArg Prod.snd hescape
  have hcomposed : opened.session.Composed := h.press d.world { code := .escape }
  -- It is typed.
  obtain ⟨htyped, hsame⟩ := run_typing line hcomposed (by rw [hopened]) (by rw [hopened]; exact hhelp)
  generalize hfull : opened.run (typing line) = full at htyped hsame
  simp only [hopened, foldl_typeChar] at htyped
  have hline : full.session.commandLine = line.dropWhile (· = ':') := by rw [htyped]
  have hclosed : { full.session with commandLine := [], mode := .editing } = { d.session with status := none } := by
    rw [htyped]
    exact congrArg (fun s => { s with status := none }) (h.closed_eq hmode)
  -- It is submitted.
  have hd' : d' = full.take (.press { code := .enter }) := by
    rw [← hfull]
    exact run_append opened (typing line) _
  have henter := press_enter (s := full.session) (by rw [htyped]) (by rw [htyped]; exact hhelp) full.world
  rw [hclosed, hline, hsame.trans hworld] at henter
  rw [hd']
  show (full.session.press full.world _).1 = _ ∧ (full.session.press full.world _).2 = _
  rw [hsame.trans hworld, henter]
  exact ⟨rfl, rfl⟩

/-- In a sitting of keys and pasted texts with a screen of a fixed height: there is a command line only while it
is typed; meanwhile a key that does not submit it changes only the mode, the command line and the help, and a
text that is pasted only the command line; and to type a command line and submit it is to take the message
away, run it without the colons at its start, and scroll to the caret. -/
theorem modes_apart (t : Text) (path : Option Path) (settings : Settings) (viewport : Nat) (w : World)
    (events : List Event) (hevents : ∀ e ∈ events, e.isInput = true) :
    let d := (start { ofText t path settings with viewport } w).run events
    (d.session.mode = .editing → d.session.commandLine = []) ∧
    (d.session.mode = .command →
      (∀ key : Key, key.code ≠ .enter → ∃ mode commandLine helpShown,
        d.session.press d.world key = ({ d.session with mode, commandLine, helpShown }, d.world)) ∧
      ∀ pasted, ∃ commandLine, d.session.paste pasted = { d.session with commandLine }) ∧
    (d.session.mode = .editing → d.session.helpShown = false → ∀ line : Text,
      let d' := d.run (.press { code := .escape } :: (typing line ++ [.press { code := .enter }]))
      let ran := { d.session with status := none }.runLine d.world (line.dropWhile (· = ':'))
      d'.session = ran.1.follow ∧ d'.world = ran.2) := by
  intro d
  have h : d.session.Composed := Composed.run (composed_ofText t path settings viewport) hevents
  refine ⟨h.line, fun hmode => ⟨?_, ?_⟩, fun hmode hhelp line => run_submitted h hmode hhelp line⟩
  · intro key hkey
    exact h.exists_press_eq hmode hkey d.world
  · intro pasted
    exact ⟨_, paste_of_command hmode pasted⟩

theorem modes_apart_ragged :
    let start := start { ofText "text".toList none {} with viewport := 5 } ⟨⟨[], []⟩, [], {}⟩
    let d := start.run [.press { code := .char 'x' }]
    let d' := d.run (.press { code := .escape } :: (typing ":ragged on".toList ++ [.press { code := .enter }]))
    let asked := start.run [.press { code := .escape }, .paste "q!".toList]
    d'.session.ragged = true ∧ d'.session.buffer.text = "xtext".toList ∧ asked.session.commandLine = "q!".toList ∧
    ∃ mode commandLine helpShown, asked.session.press asked.world { code := .char 's', ctrl := true } =
      ({ asked.session with mode, commandLine, helpShown }, asked.world) := by
  intro start d d' asked
  obtain ⟨-, -, hsubmitted⟩ := modes_apart "text".toList none {} 5 ⟨⟨[], []⟩, [], {}⟩ [.press { code := .char 'x' }]
    (by decide)
  obtain ⟨hsession, -⟩ := hsubmitted (by cbv) (by cbv) ":ragged on".toList
  obtain ⟨-, hkeys, -⟩ := modes_apart "text".toList none {} 5 ⟨⟨[], []⟩, [], {}⟩
    [.press { code := .escape }, .paste "q!".toList] (by decide)
  obtain ⟨hpress, -⟩ := hkeys (by cbv)
  refine ⟨?_, ?_, by cbv, hpress { code := .char 's', ctrl := true } (by decide)⟩
  · rw [hsession]
    cbv
  · rw [hsession]
    cbv

end Sitting

end Reflow
