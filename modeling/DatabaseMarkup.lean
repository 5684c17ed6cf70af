import DatabaseMarkup.Main
import DatabaseMarkup.Text.Cursor
import DatabaseMarkup.Proofs.Text.Comment
import DatabaseMarkup.Proofs.Block.Segment
import DatabaseMarkup.Proofs.Table.Print
import DatabaseMarkup.Proofs.Relationship.Print
import DatabaseMarkup.Proofs.Settings.Merge
import DatabaseMarkup.Proofs.Document.Resolve
import DatabaseMarkup.Proofs.Diagnostic.Kind
import DatabaseMarkup.Proofs.Document.Injection
import DatabaseMarkup.Proofs.Text.Blanking
import DatabaseMarkup.Proofs.Diagnostic.Place
import DatabaseMarkup.Proofs.Diagnostic.Position
import DatabaseMarkup.Proofs.Block.Enclosure
import DatabaseMarkup.Proofs.Table.Note
import DatabaseMarkup.Proofs.Checked.Report
import DatabaseMarkup.Proofs.Block.Brace
import DatabaseMarkup.Proofs.Block.Seam
import DatabaseMarkup.Proofs.Block.Unclosed
import DatabaseMarkup.Proofs.Document.Content
import DatabaseMarkup.Proofs.Document.Order
import DatabaseMarkup.Proofs.Document.Policy
import DatabaseMarkup.Proofs.Document.Fields
import DatabaseMarkup.Proofs.Text.Pairing
import DatabaseMarkup.Proofs.Settings.Group
import DatabaseMarkup.Proofs.CommandLine.Run
import DatabaseMarkup.Proofs.Table.Index
import DatabaseMarkup.Proofs.Checked.Literal
import DatabaseMarkup.Proofs.Block.Note
import DatabaseMarkup.Proofs.Relationship.Target
import DatabaseMarkup.Proofs.Text.Location
import DatabaseMarkup.Proofs.Document.Lines
import DatabaseMarkup.Proofs.Table.Columns
import DatabaseMarkup.Proofs.Checked.Run
import DatabaseMarkup.Proofs.Text.Splitting
import DatabaseMarkup.Proofs.Block.Brackets
import DatabaseMarkup.Proofs.Text.Normalize
import DatabaseMarkup.Proofs.Settings.Name
import DatabaseMarkup.Proofs.Document.Names
import DatabaseMarkup.Proofs.Document.Merge
