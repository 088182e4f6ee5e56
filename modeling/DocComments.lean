import DocComments.Entry.Canonical
import DocComments.Entry.Grouping
import DocComments.Json.Reader
import DocComments.Main
import DocComments.Proofs.Text.Trim
import DocComments.Proofs.Text.Search
import DocComments.Proofs.Text.Lines
import DocComments.Proofs.Line
import DocComments.Proofs.Entry.WellFormed
import DocComments.Proofs.Entry.Grouping
import DocComments.Proofs.Entry.RoundTrip
import DocComments.Proofs.Comment.Scan
import DocComments.Proofs.Comment.Closing
import DocComments.Proofs.Comment.RoundTrip
import DocComments.Proofs.Comment.Positions
import DocComments.Proofs.Entry.Values
import DocComments.Proofs.Entry.Concat
import DocComments.Proofs.Comment.Settle
import DocComments.Proofs.Comment.ClosingStars
import DocComments.Proofs.Command.Stages
import DocComments.Proofs.Files.Write
import DocComments.Proofs.Command.Output
import DocComments.Proofs.Text.Expression
import DocComments.Proofs.Line.Grammar
import DocComments.Json.Grammar
import DocComments.Proofs.Json.Reader
import DocComments.Proofs.Json.Printer
import DocComments.Proofs.Document.Json
import DocComments.Proofs.Command.Lookup
import DocComments.Proofs.Command.Arguments
import DocComments.Proofs.Command.Files
import DocComments.Proofs.Entry.Layout
import DocComments.Proofs.Comment.Rescan
import DocComments.Proofs.Comment.Concat
import DocComments.Proofs.Comment.Cursor
import DocComments.Proofs.Entry.Header
import DocComments.Proofs.Document.Markdown
import DocComments.Proofs.Entry.Query
import DocComments.Proofs.Text.Paragraphs
import DocComments.Proofs.Comment.Documented
import DocComments.Proofs.Document.Plain
import DocComments.Proofs.Document.CodeSpan
import DocComments.Proofs.Document.TagList
import DocComments.Proofs.Command.Require
import DocComments.Proofs.Files.Read
import DocComments.Proofs.Files.Tree
import DocComments.Proofs.Files.Order
import DocComments.Proofs.Command.Expand
import DocComments.Proofs.Files.Place
import DocComments.Proofs.Command.Distinct
import DocComments.Proofs.Files.Ancestors
import DocComments.Proofs.Command.Written
