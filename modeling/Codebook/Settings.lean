import Codebook.Declarations.Table
import Codebook.Files.Path
import Codebook.Script.MemberName

namespace Codebook

-- What one run reads, writes and generates.

-- Which enumeration is read and which class is made from it
inductive Target where
  | status
  | requestType
deriving Repr, DecidableEq, Inhabited

namespace Target

def enumName : Target → String
  | status => "ResponseCodeEnum"
  | requestType => "HederaFunctionality"

def className : Target → String
  | status => "Status"
  | requestType => "RequestType"

-- What a line contains that begins the enumeration in the declarations
def marker (target : Target) : String := "enum " ++ target.enumName ++ " \x7b"

end Target

structure Settings where
  protoFolder : String := "packages/proto/src/proto/services"
  declarations : String := "packages/proto/src/proto.d.ts"
  output : String := "StatusCodes"
  target : Target := .status
  names : Script.NameStyle := .pascal
  duplicates : Declarations.Duplicates := .reject
  license : Bool := true
deriving Repr, DecidableEq, Inhabited

-- The settings with their paths as seen from a base
def Settings.relativeTo (base : String) (settings : Settings) : Settings :=
  { settings with
    protoFolder := Files.resolve base settings.protoFolder
    declarations := Files.resolve base settings.declarations
    output := Files.resolve base settings.output }

end Codebook
