import Codebook.Files.Path

namespace Codebook.Files

-- What a run can see of the files around it. Seeing changes nothing.
structure View where
  present : String → Bool
  isFolder : String → Bool
  -- the text of a file, or the reason why there is none
  text : String → Except String String
  -- the names of the files directly in a folder, in no special order
  fileNames : String → List String

-- What was seen at one path, which may be that there is nothing
structure Seen where
  present : Bool
  isFolder : Bool
  text : Except String String
  fileNames : List String

-- Why a file cannot be read or written
inductive FileFault where
  | notFound
  | notFolder
  | isFolder
  | tooLong
  | holdsNul
  | notText
deriving Repr, DecidableEq, Inhabited

def FileFault.reason : FileFault → String
  | notFound => "No such file or directory (os error 2)"
  | notFolder => "Not a directory (os error 20)"
  | isFolder => "Is a directory (os error 21)"
  | tooLong => "File name too long (os error 36)"
  | holdsNul => "file name contained an unexpected NUL byte"
  | notText => "stream did not contain valid UTF-8"

-- The fault of a path that is wrong wherever it is looked for
def pathFault? (path : String) : Option FileFault :=
  if path.toList.contains '\x00' then some .holdsNul
  else if path.isEmpty then some .notFound
  else if pathLimit < path.utf8ByteSize then some .tooLong
  else none

-- The view of the paths that were looked at. There is nothing at any other path.
def View.ofSeen (seen : List (String × Seen)) : View where
  present path := (seen.lookup path).any Seen.present
  isFolder path := (seen.lookup path).any Seen.isFolder
  text path :=
    match seen.lookup path with
    | some there => there.text
    | none => .error FileFault.notFound.reason
  fileNames path := ((seen.lookup path).map Seen.fileNames).getD []

def decodeText (content : ByteArray) : Except FileFault String :=
  match String.fromUTF8? content with
  | some text => .ok text
  | none => .error .notText

end Codebook.Files
