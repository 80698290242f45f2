import ActionSheet.Main
import ActionSheet.Storage.Folder
import ActionSheet.Proofs.Markup.Run
import ActionSheet.Proofs.Markup.Recognition
import ActionSheet.Proofs.Markup.Lexical
import ActionSheet.Proofs.Markup.Outline
import ActionSheet.Proofs.Markup.Draft
import ActionSheet.Proofs.Markup.Piece
import ActionSheet.Proofs.Markup.Tag
import ActionSheet.Proofs.Markup.Document
import ActionSheet.Proofs.Table.Reading
import ActionSheet.Proofs.Markup.Continuation
import ActionSheet.Proofs.Text.Inverse
import ActionSheet.Proofs.Table.Unambiguous
import ActionSheet.Proofs.Table.Layout
import ActionSheet.Proofs.Report.Blocks
import ActionSheet.Proofs.Markup.Declaration
import ActionSheet.Proofs.Report.Shares
import ActionSheet.Proofs.Catalog.Insertion
import ActionSheet.Proofs.Report.StorageOrder
import ActionSheet.Proofs.Json.Literal
import ActionSheet.Proofs.Json.Printing
import ActionSheet.Proofs.Record.Recasting
import ActionSheet.Proofs.Record.RoundTrip
import ActionSheet.Proofs.Markup.Preorder
import ActionSheet.Proofs.Markup.Depth
import ActionSheet.Proofs.Markup.AttributeValue
import ActionSheet.Proofs.Definition.Remarks
import ActionSheet.Proofs.Definition.Partition
import ActionSheet.Proofs.Definition.Coverage
import ActionSheet.Proofs.Definition.Dependence
import ActionSheet.Proofs.Command.StoredCatalog
import ActionSheet.Proofs.Markup.Refusal
import ActionSheet.Proofs.Markup.Lookup
import ActionSheet.Proofs.Markup.Descent
import ActionSheet.Proofs.Table.Block
import ActionSheet.Proofs.Markup.OpenElements
import ActionSheet.Proofs.Command.Address
