import Codebook.Settings

namespace Codebook.Settings

-- JSON texts and what they hold. A text may have blanks between all its parts, and every character
-- of a string may be written in several ways.

def AreBlanks (text : List Char) : Prop := ∀ c ∈ text, c = ' ' ∨ c = '\n' ∨ c = '\t' ∨ c = '\r'

instance (text : List Char) : Decidable (AreBlanks text) :=
  List.decidableBAll _ text

-- A hexadecimal digit of either case
def IsHexDigit (c : Char) (value : Nat) : Prop :=
  value < 16 ∧ (c = Nat.digitChar value ∨ c = (Nat.digitChar value).toUpper)

inductive IsHex : List Char → Nat → Prop
  | four {a b c d : Char} {w x y z : Nat} (ha : IsHexDigit a w) (hb : IsHexDigit b x)
      (hc : IsHexDigit c y) (hd : IsHexDigit d z) :
      IsHex [a, b, c, d] (((w * 16 + x) * 16 + y) * 16 + z)

-- What may stand behind a backslash, with the character it stands for
def marks : List (Char × Char) :=
  [('"', '"'), ('\\', '\\'), ('/', '/'), ('b', '\x08'), ('f', '\x0c'), ('n', '\n'), ('r', '\r'),
    ('t', '\t')]

-- A character in a string. One behind the first 65536 has a code of two surrogates.
inductive Spells : Char → List Char → Prop
  | plain {c : Char} (hc : 0x20 ≤ c.toNat) (hq : c ≠ '"') (hb : c ≠ '\\') : Spells c [c]
  | mark {c m : Char} (h : (m, c) ∈ marks) : Spells c ['\\', m]
  | code {c : Char} {digits : List Char} (h : IsHex digits c.toNat) :
      Spells c ('\\' :: 'u' :: digits)
  | pair {c : Char} {first second : List Char} {high low : Nat} (hf : IsHex first high)
      (hs : IsHex second low) (hh : 0xD800 ≤ high ∧ high ≤ 0xDBFF)
      (hl : 0xDC00 ≤ low ∧ low ≤ 0xDFFF)
      (hc : c.toNat = (high - 0xD800) * 0x400 + (low - 0xDC00) + 0x10000) :
      Spells c ('\\' :: 'u' :: (first ++ '\\' :: 'u' :: second))

inductive SpellsAll : List Char → List Char → Prop
  | nil : SpellsAll [] []
  | cons {c : Char} {value text more : List Char} (hc : Spells c text)
      (h : SpellsAll value more) : SpellsAll (c :: value) (text ++ more)

def IsString (value : String) (text : List Char) : Prop :=
  ∃ inside, SpellsAll value.toList inside ∧ text = '"' :: (inside ++ ['"'])

def AreDigits (text : List Char) : Prop := text ≠ [] ∧ ∀ c ∈ text, c.isDigit

-- A number has no further digits behind a leading zero.
def IsNumber (text : List Char) : Prop :=
  ∃ sign whole fraction exponent, text = sign ++ (whole ++ (fraction ++ exponent)) ∧
    (sign = [] ∨ sign = ['-']) ∧ AreDigits whole ∧ (whole.head? = some '0' → whole = ['0']) ∧
    (fraction = [] ∨ ∃ digits, AreDigits digits ∧ fraction = '.' :: digits) ∧
    (exponent = [] ∨ ∃ mark sign digits, (mark = 'e' ∨ mark = 'E') ∧
      (sign = [] ∨ sign = ['+'] ∨ sign = ['-']) ∧ AreDigits digits ∧
      exponent = mark :: (sign ++ digits))

-- The values of a list with commas between them
inductive AreItems : List (List Char) → List Char → Prop
  | last {front value behind : List Char} (hf : AreBlanks front) (hb : AreBlanks behind) :
      AreItems [value] (front ++ (value ++ behind))
  | more {front value behind rest : List Char} {items : List (List Char)} (hf : AreBlanks front)
      (hb : AreBlanks behind) (hr : AreItems items rest) :
      AreItems (value :: items) (front ++ (value ++ (behind ++ ',' :: rest)))

def IsList (items : List (List Char)) (text : List Char) : Prop :=
  ∃ inside, text = '[' :: (inside ++ [']']) ∧
    (items = [] ∧ AreBlanks inside ∨ AreItems items inside)

-- A key and the text of its value
def IsMember (key : String) (value text : List Char) : Prop :=
  ∃ front name behind before after, AreBlanks front ∧ IsString key name ∧ AreBlanks behind ∧
    AreBlanks before ∧ AreBlanks after ∧
    text = front ++ (name ++ (behind ++ ':' :: (before ++ (value ++ after))))

inductive AreMembers : List (String × List Char) → List Char → Prop
  | last {key : String} {value text : List Char} (h : IsMember key value text) :
      AreMembers [(key, value)] text
  | more {key : String} {value text rest : List Char} {members : List (String × List Char)}
      (h : IsMember key value text) (hr : AreMembers members rest) :
      AreMembers ((key, value) :: members) (text ++ ',' :: rest)

def IsObject (members : List (String × List Char)) (text : List Char) : Prop :=
  ∃ inside, text = '\x7b' :: (inside ++ ['\x7d']) ∧
    (members = [] ∧ AreBlanks inside ∨ AreMembers members inside)

-- A JSON value of any kind
inductive IsJson : List Char → Prop
  | null : IsJson ['n', 'u', 'l', 'l']
  | yes : IsJson ['t', 'r', 'u', 'e']
  | no : IsJson ['f', 'a', 'l', 's', 'e']
  | number {text : List Char} (h : IsNumber text) : IsJson text
  | string {value : String} {text : List Char} (h : IsString value text) : IsJson text
  | list {items : List (List Char)} {text : List Char} (h : IsList items text)
      (hi : ∀ item ∈ items, IsJson item) : IsJson text
  | object {members : List (String × List Char)} {text : List Char} (h : IsObject members text)
      (hm : ∀ member ∈ members, IsJson member.2) : IsJson text

-- A document is a value with blanks around it.
def IsDocument (value text : List Char) : Prop :=
  ∃ front behind, AreBlanks front ∧ AreBlanks behind ∧ text = front ++ (value ++ behind)

end Codebook.Settings
