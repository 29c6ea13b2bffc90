import Codebook.Diagnostic.Render
import Codebook.Files.Path

namespace Codebook

-- Why a run failed. Reasons are those that the file system gives.
inductive Failure where
  | missing (path : String)
  | unreadable (path reason : String)
  | invalid (path text : String) (diagnostic : Diagnostic)
  | unwritable (path reason : String)
  | settings (path message : String)
deriving Repr, DecidableEq, Inhabited

namespace Failure

def message : Failure → String
  | missing path => s!"{path} does not exist"
  | unreadable path reason => s!"failed to read {path}: {reason}"
  | invalid path _ diagnostic => s!"{Files.fileName path}:{diagnostic.headline}"
  | unwritable path reason => s!"failed to write {path}: {reason}"
  | settings path message => s!"invalid config {path}: {message}"

-- What is behind the failure
def cause? : Failure → Option String
  | unreadable _ reason => some reason
  | unwritable _ reason => some reason
  | invalid _ _ diagnostic => some diagnostic.headline
  | _ => none

def diagnostic? : Failure → Option Diagnostic
  | invalid _ _ diagnostic => some diagnostic
  | _ => none

def render (failure : Failure) : String :=
  match failure with
  | invalid path text diagnostic => diagnostic.render text path
  | other => s!"error: {other.message}\n"

def renderColoured (failure : Failure) : String :=
  let palette := Palette.coloured
  match failure with
  | invalid path text diagnostic => diagnostic.renderColoured text path
  | other =>
    s!"{palette.error}error:{palette.reset} {palette.strong}{other.message}{palette.reset}\n"

end Failure

end Codebook
