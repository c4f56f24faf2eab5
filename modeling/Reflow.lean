import Reflow.Text.LineEnding
import Reflow.Text.Numeral
import Reflow.Break.Greedy
import Reflow.Break.Ragged
import Reflow.Pattern.Reader
import Reflow.Buffer.Wrap
import Reflow.Text.Quoted
import Reflow.Files.Path
import Reflow.Files.Tree
import Reflow.Error
import Reflow.Files.Access
import Reflow.Settings.Format
import Reflow.Settings.Store
import Reflow.Batch.Run
import Reflow.Editor.Frame
import Reflow.Program.Run
import Reflow.Main
import Reflow.Proofs.Wrapper.Independence
import Reflow.Proofs.Wrapper.Kept
import Reflow.Proofs.Wrapper.Stable
import Reflow.Proofs.Wrapper.Refill
import Reflow.Proofs.Batch.LineEndings
import Reflow.Proofs.Buffer.Edits
import Reflow.Proofs.Buffer.Crossed
import Reflow.Proofs.Wrapper.Prose
import Reflow.Proofs.Comment.Aligned
import Reflow.Proofs.Wrapper.Columns
import Reflow.Proofs.Batch.Orders
import Reflow.Proofs.Batch.SomeLines
import Reflow.Proofs.Batch.Collect
import Reflow.Proofs.Editor.Agreement
import Reflow.Proofs.Editor.Checked
import Reflow.Proofs.Editor.Clipboard
import Reflow.Proofs.Break.Optimal
import Reflow.Proofs.Editor.Modes
import Reflow.Proofs.Editor.Reopened
import Reflow.Proofs.Settings.DotEnv
import Reflow.Proofs.Settings.Format
import Reflow.Proofs.Settings.Store
import Reflow.Proofs.Break.Exhaustive
import Reflow.Proofs.Break.Fewest
import Reflow.Proofs.Break.Filled
import Reflow.Proofs.Break.Fitting
import Reflow.Proofs.Break.Spaces
import Reflow.Proofs.Wrapper.Margins
import Reflow.Proofs.Wrapper.ProseMargins
import Reflow.Proofs.Wrapper.Openers
import Reflow.Proofs.Wrapper.Hanging
import Reflow.Proofs.Wrapper.Tags
import Reflow.Proofs.Wrapper.TabRuns
import Reflow.Proofs.Comment.Parts
import Reflow.Proofs.Program.LineRange
import Reflow.Proofs.Editor.LineView
