import Reflow.Break.Greedy
import Reflow.Break.Ragged
import Reflow.Comment.Indent
import Reflow.Text.LineEnding
import Reflow.Wrapper.Options

/-!
# Wrapping

A text is cut into paragraphs at the lines without words, which are kept.  Within a paragraph the
lines lose their indents and are joined, and the joined text is broken into lines again, each with
the indent of the paragraph.
-/

namespace Reflow

/-- Options together with the markers that their leader stands for. -/
structure Wrapper where
  options : Options
  markers : Markers

namespace Wrapper

/-- The wrapper for some options, unless their leader is not a pattern. -/
def ofOptions? (o : Options) : Option Wrapper :=
  (Markers.read? o.leader).map fun markers => ⟨o.clamp, markers⟩

def code : Wrapper := ⟨{}, .code⟩

/-! ## One paragraph -/

def unwrap (w : Wrapper) (t : Text) : Text :=
  Text.join ' ' ((Text.fields isBreak t).map fun line => (w.markers.splitLine line).rest)

/-- Whether an indent opens a block comment or a doc string. -/
def isOpener (indent : Text) : Bool :=
  match Text.trim indent with
  | '/' :: stars => !stars.isEmpty && stars.all (· = '*')
  | t => t = ['"', '"', '"'] || t = ['\'', '\'', '\'']

/-- The text without the list symbol, which may have lost the white space before it. -/
def dropSymbol (symbol t : Text) : Text :=
  match Text.after? (Text.trim symbol) t with
  | some rest => Text.trimStart rest
  | none => t

/-- What comes before the lines of a paragraph. -/
structure Indents where
  /-- The list symbol, if the paragraph is a list item. -/
  symbol : Text
  first : Text
  later : Text
deriving DecidableEq, Repr

/-- The indents of a paragraph.  The lines of a block comment follow a star, and the lines of a list
item hang under its text. -/
def indents (w : Wrapper) (t : Text) : Indents :=
  let indent := (w.markers.splitLine t).indent
  let symbol := if w.options.hangLists then (listSymbol? t).getD [] else []
  { symbol
    first := if symbol.isEmpty then indent else symbol
    later :=
      if isOpener indent then indent.takeWhile isBlank ++ [' ', '*', ' ']
      else if symbol.isEmpty then indent
      else List.replicate symbol.length ' ' }

def room (w : Wrapper) (t : Text) : Nat :=
  if w.options.hangLists then w.options.width - (w.indents t).symbol.length
  else w.options.width - (w.markers.splitLine t).indent.length

/-- The words of a paragraph in one line, without its list symbol. -/
def body (w : Wrapper) (t : Text) : Text :=
  let symbol := (w.indents t).symbol
  if symbol.isEmpty then w.unwrap t else dropSymbol symbol (w.unwrap t)

def pieces (w : Wrapper) (t : Text) : List Text :=
  if w.options.ragged then Break.ragged (w.body t) (w.room t)
  else Break.greedy (w.body t) (w.room t)

def breakLines (w : Wrapper) (t : Text) : List Text :=
  match w.pieces t with
  | [] => []
  | piece :: pieces =>
    ((w.indents t).first ++ piece) :: pieces.map fun piece => (w.indents t).later ++ piece

/-! ## Lines that hold an indent only -/

/-- The lines, each with a line feed after it. -/
def terminated (ls : List Text) : Text :=
  ls.flatMap fun line => line ++ ['\n']

/-- Wraps what stands between the bare lines of a paragraph.  `pending` is the text since the last
bare line.  A bare line is written where the paragraph begins and where it ends with its text. -/
def wrapBetween (w : Wrapper) (whole : Text) : Text → List Pattern.Cut → Text → Text
  | pending, [], last =>
    let t := pending ++ last
    if t.isEmpty then [] else terminated (w.breakLines t)
  | pending, cut :: cuts, last =>
    if cut.hit.isEmpty then w.wrapBetween whole (pending ++ cut.gap) cuts last
    else
      (if cut.hit.isPrefixOf whole then cut.hit ++ ['\n'] else []) ++
        terminated (w.breakLines (pending ++ cut.gap)) ++
        (if cut.hit.isSuffixOf whole then cut.hit else []) ++
        w.wrapBetween whole [] cuts last

/-- The text without a line feed at its end. -/
def dropFinalBreak (t : Text) : Text :=
  if t.getLast? = some '\n' then t.dropLast else t

/-- Wraps one paragraph, without a line feed at the end. -/
def wrapParagraph (w : Wrapper) (t : Text) : Text :=
  let (cuts, last) := w.markers.bareLine.cuts t
  dropFinalBreak (w.wrapBetween t [] cuts last)

/-! ## A whole text -/

/-- Wraps the paragraphs between the wordless lines, which are kept. -/
def wrapAround (w : Wrapper) : List Pattern.Cut → Text → Text
  | [], last => if last.isEmpty then [] else w.wrapParagraph last
  | cut :: cuts, last => w.wrapParagraph cut.gap ++ cut.hit ++ w.wrapAround cuts last

/-- The text with every tab spelled out. -/
def expandTabs (w : Wrapper) (t : Text) : Text :=
  t.flatMap fun c => if c = '\t' then List.replicate w.options.tabWidth tabMark else [c]

def collapseFrom (tabWidth : Nat) : Nat → Text → Text
  | run, [] => List.replicate run tabMark
  | run, c :: t =>
    if c = tabMark then
      if run + 1 = tabWidth then '\t' :: collapseFrom tabWidth 0 t
      else collapseFrom tabWidth (run + 1) t
    else List.replicate run tabMark ++ c :: collapseFrom tabWidth 0 t

def collapseTabs (w : Wrapper) (t : Text) : Text :=
  collapseFrom w.options.tabWidth 0 t

/-- Wraps a text whose lines end in line feeds and whose tabs are spelled out. -/
def wrapExpanded (w : Wrapper) (t : Text) : Text :=
  let (cuts, last) := w.markers.separator.cuts t
  let wrapped := w.wrapAround cuts last
  if t.getLast? = some '\n' && wrapped.getLast? ≠ some '\n' then wrapped ++ ['\n'] else wrapped

/-- Wraps a text, which may hold several paragraphs.  What comes between them and a line feed at the
end are kept, and so is the style of the line endings. -/
def wrap (w : Wrapper) (t : Text) : Text :=
  if t.isEmpty then []
  else
    (LineEnding.detect t).apply
      (w.collapseTabs (w.wrapExpanded (w.expandTabs (LineEnding.normalize t))))

end Wrapper

end Reflow
