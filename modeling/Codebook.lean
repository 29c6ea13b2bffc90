import Codebook.Main
import Codebook.Proofs.Distinct
import Codebook.Proofs.Dictionary
import Codebook.Proofs.Script.MemberName
import Codebook.Proofs.Script.Page
import Codebook.Proofs.Declarations.Entry
import Codebook.Proofs.Declarations.Table
import Codebook.Proofs.Number.Decimal
import Codebook.Proofs.Script.Reading
import Codebook.Proofs.Script.Reading.Rows
import Codebook.Proofs.Script.Reading.Lines
import Codebook.Proofs.Script.Reading.Theorems
import Codebook.Proofs.Proto.Comment
import Codebook.Proofs.Proto.Docs
import Codebook.Proofs.Generated
import Codebook.Proofs.Conversion
import Codebook.Proofs.Conversion.Agreement
import Codebook.Proofs.Conversion.Members
import Codebook.Proofs.Proto.Unplaced
import Codebook.Proofs.Proto.Written
import Codebook.Proofs.Proto.Written.Comment
import Codebook.Proofs.Proto.Written.Reads
import Codebook.Proofs.Proto.Written.Theorems
import Codebook.Proofs.Proto.Cuts
import Codebook.Proofs.Proto.Truncated.Pieces
import Codebook.Proofs.Proto.Truncated.Outermost
import Codebook.Proofs.Proto.Truncated.Theorems
import Codebook.Proofs.Script.Marks
import Codebook.Proofs.Script.Comments
import Codebook.Proofs.Script.Comments.Rows
import Codebook.Proofs.Declarations.Block
import Codebook.Proofs.Conversion.Marks
import Codebook.Proofs.Conversion.Origins
import Codebook.Proofs.Conversion.Definition
import Codebook.Proofs.Conversion.Docs
import Codebook.Proofs.Conversion.Duplicates
import Codebook.Proofs.Conversion.Drift
import Codebook.Proofs.Number.Signs
import Codebook.Proofs.Proto.Plain
import Codebook.Proofs.Proto.Literal
import Codebook.Proofs.Declarations.Literal
import Codebook.Proofs.Proto.Revised
import Codebook.Proofs.Proto.Joined
import Codebook.Proofs.Proto.Concatenation
import Codebook.Proofs.Proto.Remarks
import Codebook.Proofs.Proto.Braces
import Codebook.Proofs.Declarations.Written
import Codebook.Proofs.Declarations.Comments
import Codebook.Proofs.Script.Reading.Names
import Codebook.Proofs.Script.ScriptName
import Codebook.Proofs.Conversion.Names
import Codebook.Proofs.Files.Path
import Codebook.Proofs.Files.Tree
import Codebook.Proofs.Conversion.NoInput
import Codebook.Proofs.Conversion.Documented
import Codebook.Proofs.Generation
import Codebook.Proofs.Generation.Repeated
import Codebook.Proofs.Command.Arguments
import Codebook.Proofs.Command.Effects
import Codebook.Proofs.Text.Position
import Codebook.Proofs.Declarations.Lines
import Codebook.Proofs.Declarations.Pairs
import Codebook.Proofs.Declarations.Scan
import Codebook.Proofs.Declarations.Ends
import Codebook.Proofs.Diagnostic.Carets
import Codebook.Proofs.Declarations.Words
import Codebook.Proofs.Declarations.Pointing
import Codebook.Proofs.Declarations.Shown
import Codebook.Proofs.Diagnostic.Shown
import Codebook.Proofs.Proto.Faults
import Codebook.Proofs.Text.Shown
import Codebook.Proofs.Script.Comments.Docs
import Codebook.Proofs.Proto.Places
import Codebook.Proofs.Proto.Spelled
import Codebook.Proofs.Proto.Skipped
import Codebook.Proofs.Proto.Attached
import Codebook.Proofs.Proto.Normal
import Codebook.Proofs.Proto.Inside
import Codebook.Proofs.Proto.Fields
import Codebook.Proofs.Proto.Nesting
import Codebook.Proofs.Proto.Named
import Codebook.Proofs.Proto.Addresses
import Codebook.Proofs.Proto.MessageDocs
import Codebook.Proofs.Settings.Theorems
import Codebook.Proofs.Proto.Guarded.Theorems
import Codebook.Proofs.Diagnostic.Coloured
import Codebook.Proofs.Diagnostic.Gutter
import Codebook.Proofs.Number.Value
import Codebook.Proofs.Script.Steps
