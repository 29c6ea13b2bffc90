namespace Codebook

-- JSON values and their text on several lines.
inductive Json where
  | null
  | bool (value : Bool)
  | int (value : Int)
  | text (value : String)
  | list (values : List Json)
  | object (members : List (String × Json))
deriving Repr, Inhabited

namespace Json

def nat (n : Nat) : Json := .int n
def texts (values : List String) : Json := .list (values.map .text)

def hexDigit (n : Nat) : Char := (Nat.toDigits 16 n).headD '0'

-- Quotes, backslashes and controls are escaped, everything else is written as it is
def escaped (c : Char) : List Char :=
  match c with
  | '"' => ['\\', '"']
  | '\\' => ['\\', '\\']
  | '\n' => ['\\', 'n']
  | '\r' => ['\\', 'r']
  | '\t' => ['\\', 't']
  | '\x08' => ['\\', 'b']
  | '\x0c' => ['\\', 'f']
  | _ =>
    if c.toNat < 0x20 then ['\\', 'u', '0', '0', hexDigit (c.toNat / 16), hexDigit (c.toNat % 16)]
    else [c]

def quoted (text : String) : String :=
  "\"" ++ String.ofList (text.toList.flatMap escaped) ++ "\""

def margin (level : Nat) : String := String.ofList (List.replicate (2 * level) ' ')

-- Members in the order of their keys, at every depth
mutual

def sorted : Json → Json
  | list values => .list (sortedList values)
  | object members => .object ((sortedMembers members).mergeSort fun a b => a.1 ≤ b.1)
  | other => other

def sortedList : List Json → List Json
  | [] => []
  | value :: rest => value.sorted :: sortedList rest

def sortedMembers : List (String × Json) → List (String × Json)
  | [] => []
  | (key, value) :: rest => (key, value.sorted) :: sortedMembers rest

end

-- The items of a bracket, each on lines of its own, one level deeper than the bracket
def bracket (opening closing : String) (level : Nat) (items : List String) : String :=
  if items.isEmpty then opening ++ closing
  else
    let separator := ",\n" ++ margin (level + 1)
    opening ++ "\n" ++ margin (level + 1) ++ separator.intercalate items ++ "\n" ++ margin level
      ++ closing

mutual

def pretty (level : Nat) : Json → String
  | null => "null"
  | bool value => if value then "true" else "false"
  | int value => toString value
  | text value => quoted value
  | list values => bracket "[" "]" level (prettyList (level + 1) values)
  | object members => bracket "\x7b" "\x7d" level (prettyMembers (level + 1) members)

def prettyList (level : Nat) : List Json → List String
  | [] => []
  | value :: rest => value.pretty level :: prettyList level rest

def prettyMembers (level : Nat) : List (String × Json) → List String
  | [] => []
  | (key, value) :: rest =>
    (quoted key ++ ": " ++ value.pretty level) :: prettyMembers level rest

end

end Json

end Codebook
