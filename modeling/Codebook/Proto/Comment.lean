import Codebook.Text.Blank
import Codebook.Text.Lines

namespace Codebook.Proto

open Codebook.Text

-- The text of comments without their decoration.

-- A line of a doc comment without the star in front of it
def withoutStar (row : List Char) : List Char :=
  match trim row with
  | '*' :: rest => trim rest
  | text => text

def withoutEmptyEnds (lines : List (List Char)) : List (List Char) :=
  ((lines.dropWhile List.isEmpty).reverse.dropWhile List.isEmpty).reverse

-- The lines of a doc comment, given what stands between `/*` and its end
def docLines (body : List Char) : List String :=
  (withoutEmptyEnds ((rows body).map withoutStar)).map String.ofList

-- The text of a comment that begins with slashes
def remarkText (comment : List Char) : String :=
  String.ofList (trim (comment.dropWhile (· == '/')))

end Codebook.Proto
