import TemplateDump.Config.Creation
import TemplateDump.Config.Discovery
import TemplateDump.Config.Reading
import TemplateDump.Session.Basic
import TemplateDump.Tree.Dump
import TemplateDump.Tree.Visitor
import TemplateDump.Proofs.Store.Unfold
import TemplateDump.Proofs.Tree.Lines
import TemplateDump.Proofs.Session.Walk
import TemplateDump.Proofs.Session.Reuse
import TemplateDump.Proofs.Text.Pieces
import TemplateDump.Proofs.Text.Borders
import TemplateDump.Proofs.Text.Escape
import TemplateDump.Proofs.Span
import TemplateDump.Proofs.Node.Shown
import TemplateDump.Proofs.Node.Reading
import TemplateDump.Proofs.Line
import TemplateDump.Proofs.Config.Nearest
import TemplateDump.Proofs.Config.Upwards
import TemplateDump.Proofs.Tree.Outline
import TemplateDump.Proofs.Tree.Reading
import TemplateDump.Proofs.Tree.LineCount
import TemplateDump.Proofs.Registry.Registering
import TemplateDump.Proofs.Registry.Ignoring
import TemplateDump.Proofs.Setup.History
import TemplateDump.Proofs.Tree.Stops
import TemplateDump.Proofs.Setup.Growth
import TemplateDump.Proofs.Setup.Rendering
import TemplateDump.Proofs.Setup.Components
import TemplateDump.Proofs.Output
import TemplateDump.Proofs.Tree.Entries
import TemplateDump.Proofs.Store.Copies
import TemplateDump.Proofs.Store.Insertion
import TemplateDump.Proofs.Session.Frame
import TemplateDump.Proofs.Text.Placeholder
import TemplateDump.Proofs.Diagnostic.Message
import TemplateDump.Proofs.Text.Field
import TemplateDump.Proofs.Diagnostic.Entry
import TemplateDump.Proofs.Config.FileStart
import TemplateDump.Proofs.Config.Candidates
import TemplateDump.Proofs.Config.LongNames
import TemplateDump.Proofs.Text.Cuts
import TemplateDump.Proofs.Text.InPlace
import TemplateDump.Proofs.Text.Bytes
import TemplateDump.Proofs.Diagnostic.Passes
