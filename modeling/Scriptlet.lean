import Scriptlet.Main
import Scriptlet.Scopes.Work
import Scriptlet.Proofs.Grammar.Recognition
import Scriptlet.Proofs.Grammar.Recovery
import Scriptlet.Proofs.Grammar.Resumption
import Scriptlet.Proofs.Grammar.Relabelling
import Scriptlet.Proofs.Grammar.Segments
import Scriptlet.Proofs.Token.Stream
import Scriptlet.Proofs.Token.Tiling
import Scriptlet.Proofs.Token.Numeral
import Scriptlet.Proofs.Token.Seam
import Scriptlet.Proofs.Program
import Scriptlet.Proofs.Run.Safety
import Scriptlet.Proofs.Run.Lines
import Scriptlet.Proofs.Run.Frame
import Scriptlet.Proofs.Run.Names
import Scriptlet.Proofs.Run.Confinement
import Scriptlet.Proofs.Run.Resolution
import Scriptlet.Proofs.Run.Endings
import Scriptlet.Proofs.Session.Safety
import Scriptlet.Proofs.Session.Seam
import Scriptlet.Proofs.Session.Layout
import Scriptlet.Proofs.Session.Tracing
import Scriptlet.Proofs.Session.History
import Scriptlet.Proofs.Session.Unread
import Scriptlet.Proofs.Json.RoundTrip
import Scriptlet.Proofs.Json.LineEnds
import Scriptlet.Proofs.Node.Stored
import Scriptlet.Proofs.Node.Reloading
import Scriptlet.Proofs.Node.Refusals
import Scriptlet.Proofs.Command.Emission
import Scriptlet.Proofs.Cursor.Program
import Scriptlet.Proofs.Grammar.Leading
import Scriptlet.Proofs.Grammar.FirstError
import Scriptlet.Proofs.Grammar.ErrorOrder
import Scriptlet.Proofs.Decimal.Shown
import Scriptlet.Proofs.Run.Framing
import Scriptlet.Proofs.Scopes.Calls
import Scriptlet.Proofs.Scopes.Cells
import Scriptlet.Proofs.Scopes.Script
import Scriptlet.Proofs.Token.Places
import Scriptlet.Proofs.Token.Spelling
import Scriptlet.Proofs.Token.Strays
import Scriptlet.Proofs.Run.Brackets
import Scriptlet.Proofs.Session.Brackets
import Scriptlet.Proofs.Node.Unambiguous
