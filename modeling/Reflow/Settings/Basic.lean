import Reflow.Files.Path
import Reflow.Wrapper.Options

/-!
# Settings

What is set once for all files: the width, the way of breaking lines, the width of a tab, and the
file types that hold prose.
-/

namespace Reflow

structure Settings where
  /-- The width of lines, where it is not left to the one who asks. -/
  width : Option Nat := none
  ragged : Bool := false
  /-- The file types that hold prose, with commas between them. -/
  proseTypes : Text := ".md,.markdown,.adoc,.asciidoc,.txt".toList
  tabWidth : Nat := 4
deriving DecidableEq, Repr

/-- Whether two texts differ at most in the case of ASCII letters. -/
def sameIgnoringCase (s t : Text) : Bool :=
  s.map Char.toLower = t.map Char.toLower

namespace Settings

/-- Whether a path is that of a file with prose, going by its type. -/
def isProse (s : Settings) (p : Path) : Bool :=
  p.extension?.any fun ext =>
    (Text.splitOn ',' s.proseTypes).any fun type => sameIgnoringCase (Text.trim type) ('.' :: ext)

/-- The options for a file, or for a text without a path. -/
def optionsFor (s : Settings) (p : Option Path) (fallbackWidth : Nat) : Options :=
  let base : Options := if p.any s.isProse then .prose else {}
  { base with width := s.width.getD fallbackWidth, tabWidth := s.tabWidth, ragged := s.ragged }

end Settings

end Reflow
