import Codebook.Text.Position

namespace Codebook

-- What is wrong with an input text, and where.

inductive DiagnosticKind where
  | unclosedBlock
  | nestedBlock
  | missingBlock
  | malformedLine
  | duplicateKey
  | unexpectedToken
  | unterminatedComment
  | invalidNumber
deriving Repr, DecidableEq, Inhabited

def DiagnosticKind.title : DiagnosticKind → String
  | unclosedBlock => "Unclosed block"
  | nestedBlock => "Nested block"
  | missingBlock => "Missing block"
  | malformedLine => "Malformed line"
  | duplicateKey => "Duplicate key"
  | unexpectedToken => "Unexpected token"
  | unterminatedComment => "Unterminated comment"
  | invalidNumber => "Invalid number"

-- `related` is a second place that explains the first, such as where a block was opened
structure Diagnostic where
  kind : DiagnosticKind
  message : String
  span : Span
  related : Option Span := none
  label : Option String := none
  help : Option String := none
deriving Repr, DecidableEq, Inhabited

-- Lines and columns are shown counted from one
def Diagnostic.headline (d : Diagnostic) : String :=
  s!"{d.span.start.line + 1}:{d.span.start.column + 1}: {d.kind.title}: {d.message}"

end Codebook
