import Codebook.Text.Position

namespace Codebook.Proto

-- Tokens of the definition language. Numbers are kept as written, quoted texts without
-- their quotes and escapes, comments without their decoration.
inductive Token where
  | word (name : String)
  | number (text : String)
  | quoted (value : String)
  | symbol (char : Char)
  | doc (lines : List String)
  | remark (text : String)
deriving Repr, DecidableEq, Inhabited

namespace Token

def isComment : Token → Bool
  | doc _ => true
  | remark _ => true
  | _ => false

-- How a message names the token that it found
def describe : Token → String
  | word name => s!"'{name}'"
  | number text => s!"number {text}"
  | quoted value => s!"string \"{value}\""
  | symbol char => s!"'{char}'"
  | doc _ => "doc comment"
  | remark _ => "comment"

end Token

-- How a message names the end of the source
def describeEnd : String := "end of file"

-- The tokens of a source and the place where it ends
structure TokenStream where
  tokens : List (Located Token)
  stop : Position
deriving Repr, DecidableEq, Inhabited

end Codebook.Proto
