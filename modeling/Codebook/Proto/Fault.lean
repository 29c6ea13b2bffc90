import Codebook.Diagnostic
import Codebook.Proto.Token

namespace Codebook.Proto

-- What the reader of declarations looks for at a place
inductive Wanted where
  | topLevel
  | field
  | enumValue
  | name
  | messageName
  | enumName
  | integer
  | symbol (char : Char)
deriving Repr, DecidableEq, Inhabited

def Wanted.describe : Wanted → String
  | topLevel => "a top-level declaration"
  | field => "a field or nested declaration"
  | enumValue => "an enum value"
  | name => "a name"
  | messageName => "a message name"
  | enumName => "an enum name"
  | integer => "an integer"
  | symbol char => s!"'{char}'"

-- The two kinds of block that are kept
inductive BlockKind where
  | message
  | enum
deriving Repr, DecidableEq, Inhabited

def BlockKind.keyword : BlockKind → String
  | message => "message"
  | enum => "enum"

-- Why a source is not accepted. `none` for a token found is the end of the source.
inductive Fault where
  | openQuote (quote : Char) (span : Span)
  | openComment (span : Span)
  | unexpected (wanted : Wanted) (found : Option Token) (span : Span)
  | notInteger (text : String) (span : Span)
  | openBlock (kind : BlockKind) (name : String) (brace span : Span)
  | openOptions (bracket span : Span)
  | openStatement (start span : Span)
  | openSkipped (keyword : String) (start span : Span)
deriving Repr, DecidableEq, Inhabited

def describeFound (found : Option Token) : String :=
  match found with
  | some token => token.describe
  | none => describeEnd

def Fault.diagnostic : Fault → Diagnostic
  | openQuote quote span =>
    { kind := .unexpectedToken, message := "String literal is never closed", span
      help := some s!"Close the string with {quote}" }
  | openComment span =>
    { kind := .unterminatedComment, message := "Comment is never closed", span
      related := some (Span.point span.start), help := some "Close the comment with '*/'" }
  | unexpected wanted found span =>
    { kind := .unexpectedToken
      message := s!"Expected {wanted.describe}, found {describeFound found}.", span }
  | notInteger text span =>
    { kind := .invalidNumber, message := s!"'{text}' is not an integer", span }
  | openBlock kind name brace span =>
    { kind := .unclosedBlock, message := s!"This '{kind.keyword} {name}' block is never closed."
      span, related := some brace, help := some "Close with '\x7d'" }
  | openOptions bracket span =>
    { kind := .unclosedBlock, message := "This option list is never closed.", span
      related := some bracket, help := some "Close with ']'" }
  | openStatement start span =>
    { kind := .unexpectedToken, message := "Statement is never terminated.", span
      related := some start, label := some "statement starts here"
      help := some "End the statement with ';'" }
  | openSkipped keyword start span =>
    { kind := .unclosedBlock, message := s!"This '{keyword}' block is never closed.", span
      related := some start, help := some "Close with '\x7d'" }

end Codebook.Proto
