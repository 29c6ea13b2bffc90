import Codebook.Text.Printable

namespace Codebook.Text

-- A text in double quotes, in which every character can be seen.

def hexText (n : Nat) : String := String.ofList (Nat.toDigits 16 n)

def visible (c : Char) : String :=
  match c with
  | '\x00' => "\\0"
  | '\t' => "\\t"
  | '\n' => "\\n"
  | '\r' => "\\r"
  | '"' => "\\\""
  | '\\' => "\\\\"
  | _ =>
    if c.toNat < 0x7F && 0x20 ≤ c.toNat then c.toString
    else if isExtendingMark c || !isPrintable c then "\\u\x7b" ++ hexText c.toNat ++ "\x7d"
    else c.toString

def quoted (text : String) : String :=
  "\"" ++ String.join (text.toList.map visible) ++ "\""

end Codebook.Text
