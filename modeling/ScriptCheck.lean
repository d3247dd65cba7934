import ScriptCheck.Command.Report
import ScriptCheck.Main
import ScriptCheck.Proofs.Diagnostics
import ScriptCheck.Proofs.Discipline
import ScriptCheck.Proofs.Highlighting
import ScriptCheck.Proofs.History
import ScriptCheck.Proofs.Language
import ScriptCheck.Proofs.Layout
import ScriptCheck.Proofs.Nesting
import ScriptCheck.Proofs.Pieces
import ScriptCheck.View.Viewer
import ScriptCheck.Proofs.Decoding
import ScriptCheck.Proofs.Messages
import ScriptCheck.Proofs.OrderedTable
import ScriptCheck.Proofs.Following
import ScriptCheck.Proofs.Caret
import ScriptCheck.Proofs.Viewing
import ScriptCheck.Proofs.FileRuns
import ScriptCheck.Proofs.Alphabet
import ScriptCheck.Proofs.Resuming
import ScriptCheck.Proofs.Pointing
import ScriptCheck.Proofs.Termination
import ScriptCheck.Proofs.Arguments
import ScriptCheck.Proofs.Segments
import ScriptCheck.Proofs.Skipping
import ScriptCheck.Proofs.NumberValue
import ScriptCheck.Proofs.Tokens
import ScriptCheck.Proofs.Truncation
