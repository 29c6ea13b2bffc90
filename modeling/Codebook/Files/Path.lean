import Codebook.Text.Split

namespace Codebook.Files

-- Paths as texts with slashes between their names.

-- What stands between the slashes of a path
def segments (path : List Char) : List (List Char) := Text.splitOn '/' path

-- A segment that is empty or a dot names nothing
def isName (segment : List Char) : Bool := !segment.isEmpty && segment != ['.']

-- The names on the way that a path describes
def names (path : String) : List String :=
  ((segments path.toList).filter isName).map String.ofList

-- Goes on by one name. Two dots lead back to the folder around, which the root is for itself.
def goOn (above : List String) (name : String) : List String :=
  if name = ".." then above.dropLast else above ++ [name]

-- The names from the root to where a path leads
def way (path : String) : List String := (names path).foldl goOn []

-- A name that leads to what stands directly in a folder
def isEntry (name : String) : Bool := names name == [name] && name != ".."

def endsInSlash (path : String) : Bool := path.toList.getLast? = some '/'

-- Whether the last step of a path stays where it is or leads back
def endsInPlace (path : String) : Bool :=
  match ((segments path.toList).filter (!·.isEmpty)).getLast? with
  | some segment => !isName segment || segment == ['.', '.']
  | none => true

-- Whether a path can only be that of a folder
def endsInFolder (path : String) : Bool := endsInSlash path || endsInPlace path

-- The most bytes that a name and a path can have
def nameLimit : Nat := 255
def pathLimit : Nat := 4095

def isAbsolute (path : String) : Bool := path.toList.head? = some '/'

-- A name below a folder
def below (folder name : String) : String :=
  if folder.isEmpty || endsInSlash folder then folder ++ name
  else folder ++ "/" ++ name

-- A path as seen from a base
def resolve (base path : String) : String :=
  if isAbsolute path then path else below base path

-- The last name of a path, if it has one
def fileName (path : String) : String :=
  match (names path).getLast? with
  | some name => if name = ".." then "" else name
  | none => ""

-- Whether the last dot of a file name, which is not its first character, is followed by an
-- extension
def hasExtension (extension name : String) : Bool :=
  let ending := '.' :: extension.toList
  ending.isSuffixOf name.toList && ending.length < name.length

end Codebook.Files
