import ScriptLexer.File.Tree
import ScriptLexer.Main
import ScriptLexer.Prompt.Completion
import ScriptLexer.Prompt.Highlight
import ScriptLexer.Proofs.Grammar
import ScriptLexer.Proofs.LongestMatch
import ScriptLexer.Proofs.Tiling
import ScriptLexer.Proofs.LineNumbers
import ScriptLexer.Proofs.CursorWord
import ScriptLexer.Proofs.FileRuns
import ScriptLexer.Proofs.Receivers
import ScriptLexer.Proofs.Rescan
import ScriptLexer.Proofs.Lookahead
import ScriptLexer.Proofs.LineBoundary
import ScriptLexer.Proofs.InputLines
import ScriptLexer.Proofs.Partition
import ScriptLexer.Proofs.Visible
import ScriptLexer.Proofs.SessionOutput
import ScriptLexer.Proofs.Agreement
import ScriptLexer.Proofs.TokenRows
import ScriptLexer.Proofs.Modes
import ScriptLexer.Proofs.Brackets
import ScriptLexer.Proofs.Continuation
import ScriptLexer.Proofs.Offsets
import ScriptLexer.Proofs.ByteReads
import ScriptLexer.Proofs.ByteScanner
import ScriptLexer.Proofs.ByteSteps
import ScriptLexer.Proofs.ByteScans
import ScriptLexer.Proofs.Snippets
import ScriptLexer.Proofs.ControlSequences
import ScriptLexer.Proofs.Reports
import ScriptLexer.Proofs.Carets
import ScriptLexer.Proofs.Highlighting
import ScriptLexer.Proofs.Dimming
import ScriptLexer.Proofs.Comments
import ScriptLexer.Proofs.LineEndings
import ScriptLexer.Proofs.Suggestions
import ScriptLexer.Proofs.Commands
