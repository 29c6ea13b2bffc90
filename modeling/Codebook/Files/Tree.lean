import Codebook.Dictionary
import Codebook.Files.View

namespace Codebook.Files

-- A tree of folders and files that is kept in memory. Every path begins at its root. There are
-- no links in it, so that two paths lead to one file only where the names on them do, and
-- nothing else changes it while it is read or written.

inductive Node where
  | folder
  | file (content : ByteArray)
deriving Inhabited

-- Nodes by the names on the way to them. The root is a folder and is not among them. Rights,
-- times and links are not kept: a node is a folder or a file with a content.
structure Tree where
  nodes : Dictionary (List String) Node := {}
deriving Inhabited

namespace Tree

def node? (tree : Tree) (names : List String) : Option Node :=
  if names.isEmpty then some .folder else tree.nodes.get? names

-- Goes on from a place, through folders only
def descend (tree : Tree) (above : List String) : List String → Except FileFault Node
  | [] =>
    match tree.node? above with
    | some node => .ok node
    | none => .error .notFound
  | name :: rest =>
    match tree.node? above with
    | some .folder =>
      if nameLimit < name.utf8ByteSize then .error .tooLong
      else tree.descend (goOn above name) rest
    | some (.file _) => .error .notFolder
    | none => .error .notFound

-- What stands at a path. A path that can only be that of a folder names no file.
def find (tree : Tree) (path : String) : Except FileFault Node :=
  match pathFault? path with
  | some fault => .error fault
  | none => do
    match ← tree.descend [] (names path) with
    | .folder => return .folder
    | .file content => if endsInFolder path then .error .notFolder else return .file content

def isFolder (tree : Tree) (path : String) : Bool :=
  match tree.find path with
  | .ok .folder => true
  | _ => false

def present (tree : Tree) (path : String) : Bool := (tree.find path).isOk

def content (tree : Tree) (path : String) : Except FileFault ByteArray := do
  match ← tree.find path with
  | .folder => .error .isFolder
  | .file content => return content

def text (tree : Tree) (path : String) : Except FileFault String := do
  decodeText (← tree.content path)

-- The name of a file that stands directly in a folder
def nameIn (folder : List String) (place : List String × Node) : Option String :=
  match place.2 with
  | .folder => none
  | .file _ => if place.1.dropLast = folder then place.1.getLast?.filter isEntry else none

def fileNames (tree : Tree) (folder : String) : List String :=
  tree.nodes.pairs.filterMap (nameIn (way folder))

def view (tree : Tree) : View where
  present := tree.present
  isFolder := tree.isFolder
  text path := (tree.text path).mapError FileFault.reason
  fileNames := tree.fileNames

def put (tree : Tree) (names : List String) (node : Node) : Tree :=
  ⟨tree.nodes.put names node⟩

-- Goes to a folder, by names from the root on
def enter (tree : Tree) (names : List String) : Except FileFault Unit := do
  match ← tree.descend [] names with
  | .folder => return ()
  | .file _ => .error .notFolder

-- Writes a file where names lead to, in place of one that is there
def writeAt (tree : Tree) (names : List String) (content : ByteArray) : Except FileFault Tree :=
  let place := names.foldl goOn []
  match tree.descend [] names with
  | .ok .folder => .error .isFolder
  | .ok (.file _) => .ok (tree.put place (.file content))
  | .error .notFound => .ok (tree.put place (.file content))
  | .error fault => .error fault

-- Writes a file. Its folder has to be there, and the path may not be that of a folder. It is
-- written as a whole or not at all: a write that fails halfway and leaves a file cut short, as
-- on a full disk, is not among the faults.
def write (tree : Tree) (path : String) (content : ByteArray) : Except FileFault Tree :=
  match pathFault? path with
  | some fault => .error fault
  | none =>
    if endsInPlace path then do
      tree.enter (names path)
      .error .isFolder
    else do
      tree.enter (names path).dropLast
      if endsInSlash path then .error .isFolder else tree.writeAt (names path) content

-- The tree with a folder at the end of a way and with those on the way to it
def makeFolders (tree : Tree) (above : List String) : List String → Tree
  | [] => tree
  | name :: rest =>
    let here := above ++ [name]
    let tree := if (tree.node? here).isSome then tree else tree.put here .folder
    tree.makeFolders here rest

-- The tree with a file and with the folders on the way to it
def makeFile (tree : Tree) (names : List String) (content : ByteArray) : Tree :=
  (tree.makeFolders [] names.dropLast).put names (.file content)

-- The tree without a node and what is below it
def remove (tree : Tree) (names : List String) : Tree :=
  ⟨⟨tree.nodes.pairs.filter fun (way, _) => !names.isPrefixOf way⟩⟩

end Tree

end Codebook.Files
