import Codebook.Declarations.Entry
import Codebook.Dictionary

namespace Codebook.Declarations

-- Names by key, where the key is the name itself or the code that it stands for. Codes are
-- compared by value, so their key is the decimal numeral.

inductive Column where
  | name
  | code
deriving Repr, DecidableEq, Inhabited

-- What happens to a key that comes again
inductive Duplicates where
  | reject
  | lastWins
deriving Repr, DecidableEq, Inhabited

def Entry.key (column : Column) (entry : Entry) : String :=
  match column with
  | .name => entry.name
  | .code => toString entry.number

structure Table where
  column : Column
  names : Dictionary String String
deriving Repr, DecidableEq, Inhabited

structure TableFault where
  key : String
  span : Span
  first : Span
deriving Repr, DecidableEq, Inhabited

def TableFault.diagnostic (fault : TableFault) : Diagnostic where
  kind := .duplicateKey
  message := s!"'{fault.key}' is defined more than once."
  span := fault.span
  related := some fault.first
  label := some "first defined here"
  help := some "Remove the duplicate or allow duplicates (last one wins)"

-- The entries whose key came before, each with the first entry that has the key. `seen` are
-- the entries in front.
def repeatsBehind (seen : List (String × Entry)) : List (String × Entry) → List (Entry × Entry)
  | [] => []
  | (key, entry) :: rest =>
    let behind := repeatsBehind (seen ++ [(key, entry)]) rest
    match seen.lookup key with
    | some first => (entry, first) :: behind
    | none => behind

def keyed (column : Column) (entries : List Entry) : List (String × Entry) :=
  entries.map fun entry => (entry.key column, entry)

def repeats (column : Column) (entries : List Entry) : List (Entry × Entry) :=
  repeatsBehind [] (keyed column entries)

-- A table in the making, with the span of the first entry of each key
structure Tabling where
  names : Dictionary String String := {}
  firsts : Dictionary String Span := {}
deriving Repr, DecidableEq, Inhabited

def Tabling.add (column : Column) (duplicates : Duplicates) (made : Tabling) (entry : Entry) :
    Except TableFault Tabling :=
  let key := entry.key column
  let names := made.names.put key entry.name
  match made.firsts.get? key with
  | none => .ok ⟨names, made.firsts.put key entry.span⟩
  | some first =>
    match duplicates with
    | .reject => .error ⟨key, entry.span, first⟩
    | .lastWins => .ok { made with names }

def Table.ofEntries (column : Column) (duplicates : Duplicates) (entries : List Entry) :
    Except TableFault Table := do
  let made ← entries.foldlM (Tabling.add column duplicates) {}
  return ⟨column, made.names⟩

end Codebook.Declarations
