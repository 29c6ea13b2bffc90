import Codebook.Text.CaseContext
import Codebook.Text.Cluster

namespace Codebook.Script

open Codebook.Text

-- Names of the static members of a class, made from the names of enumeration values.

inductive NameStyle where
  | pascal
  | raw
deriving Repr, DecidableEq, Inhabited

-- An underscore separates words unless a neighbour joins it in one grapheme cluster
def isSeparator (before : Option Char) (c : Char) (after : Option Char) : Bool :=
  c == '_' && !before.any isPrepended && !after.any isExtending

-- What stands between the separators of a text, given the character in front of it
def splitWords (before : Option Char) : List Char → List (List Char)
  | [] => [[]]
  | c :: rest =>
    let behind := splitWords (some c) rest
    if isSeparator before c rest.head? then [] :: behind
    else
      match behind with
      | [] => [[c]]
      | word :: more => (c :: word) :: more

def capitalize : List Char → List Char
  | [] => []
  | c :: rest => toUpper c ++ lowercase rest

def isAsciiLower (c : Char) : Bool := 'a' ≤ c && c ≤ 'z'

-- A name that has a small letter already is kept as it is
def pascalName (name : List Char) : List Char :=
  if name.any isAsciiLower then name
  else (splitWords none name).flatMap capitalize

def memberName (style : NameStyle) (name : String) : String :=
  match style with
  | .raw => name
  | .pascal => String.ofList (pascalName name.toList)

end Codebook.Script
