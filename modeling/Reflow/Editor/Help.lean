import Reflow.Screen.Flow

/-!
# Help

The window that lists the keys and the command lines.
-/

namespace Reflow.Help

inductive Item
  | heading (title : String)
  /-- A key or a command line with what it does. -/
  | entry (key use : String)
  /-- A line between two parts. -/
  | gap
deriving DecidableEq, Repr

def items : List Item :=
  [.heading "── Editor ──",
    .entry "Arrows" "Move cursor",
    .entry "Shift+Arrows" "Select text",
    .entry "Alt+Q" "Wrap paragraph or selection",
    .entry "Ctrl+W" "Wrap selection or line",
    .entry "Alt+[ / Alt+]" "Move wrap column",
    .entry "Ctrl+Y" "Copy selection or line",
    .entry "Ctrl+S" "Save",
    .entry "Ctrl+Q" "Quit",
    .entry "Esc" "Command line",
    .gap,
    .heading "── Commands ──",
    .entry ":w / :wq" "Save / save and quit",
    .entry ":q / :q!" "Quit / discard changes",
    .entry ":wrap" "Wrap paragraph",
    .entry ":wrap N" "Set wrap column",
    .entry ":ragged on|off" "Minimum raggedness",
    .entry ":tab N" "Set tab width",
    .entry ":settings save" "Store current settings",
    .gap,
    .entry "Any key" "Close this help"]

def Item.spans : Item → List Span
  | heading title => [⟨title.toList, { ink := some .yellow, bold := true }⟩]
  | entry key use =>
    [⟨key.toList, { ink := some .green, bold := true }⟩, ⟨[' ', ' '], {}⟩,
      ⟨use.toList, { ink := some .white }⟩]
  | gap => []

def area (width height : Nat) : Area :=
  let w := min 60 (width - 4)
  let h := min 26 (height - 4)
  ⟨(width - w) / 2, (height - h) / 2, w, h⟩

def title : Span :=
  ⟨" Help - Keybindings ".toList, { ink := some .cyan, bold := true }⟩

/-- Draws the window over a screen. -/
def draw (g : Grid) (width height : Nat) : Grid :=
  let a := area width height
  let g := (g.clear a).restyle a { ground := some .black }
  (g.box a { ink := some .cyan } title).flow a.inside (items.map Item.spans)

end Reflow.Help
