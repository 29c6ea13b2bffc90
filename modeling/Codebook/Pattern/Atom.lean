import Codebook.Number.Literal
import Codebook.Pattern.Mode

namespace Codebook.Pattern

-- The smallest parts of a pattern.

inductive Atom where
  | char (c : Char)
  -- a character that is written as the value of a byte
  | byte (value : Nat)
  -- digits, blanks or letters of words, or all but these
  | kind (negated : Bool)
  -- a place between characters
  | edge (ofWord : Bool)
deriving Repr, DecidableEq, Inhabited

namespace Atom

-- Outside of classes. Kinds of characters and edges of words are known for bytes only, and
-- bytes that are no characters by themselves are not looked for.
def isAllowed (mode : Mode) : Atom → Bool
  | char _ => mode.tellsCases
  | byte value => if mode.unicode then mode.tellsCases else value < 0x80
  | kind negated => !mode.unicode && !negated
  | edge ofWord => !ofWord || !mode.unicode

def code? : Atom → Option Nat
  | char c => some c.toNat
  | byte value => some value
  | _ => none

-- A class of bytes has no other characters
def isAllowedInClass (mode : Mode) : Atom → Bool
  | char c => if mode.unicode then mode.tellsCases else c.toNat < 0x80
  | edge _ => false
  | atom => atom.isAllowed mode

end Atom

-- The value of some hexadecimal digits behind digits of the value given, and what follows them
def readCode? (mode : Mode) : Nat → Nat → List Char → Option (Nat × List Char)
  | 0, value, text => some (value, text)
  | count + 1, value, text =>
    match mode.skip text with
    | [] => none
    | c :: rest => (Number.digitOf c).bind fun digit =>
      readCode? mode count (16 * value + digit) rest

def readCodePoint? (mode : Mode) (count : Nat) (text : List Char) : Option (Atom × List Char) :=
  (readCode? mode count 0 text).bind fun (code, rest) =>
    if code.isValidChar then some (.char (.ofNat code), rest) else none

-- What a single character means behind a backslash
def escaped? (c : Char) : Option Atom :=
  match c with
  | 'd' | 's' | 'w' => some (.kind false)
  | 'D' | 'S' | 'W' => some (.kind true)
  | 'A' | 'z' => some (.edge false)
  | 'b' | 'B' | '<' | '>' => some (.edge true)
  | 'a' => some (.char '\x07')
  | 'f' => some (.char '\x0C')
  | 'n' => some (.char '\n')
  | 'r' => some (.char '\r')
  | 't' => some (.char '\t')
  | 'v' => some (.char '\x0B')
  | _ => if c.toNat < 0x80 && !c.isAlphanum then some (.char c) else none

-- What follows a backslash
def readEscape? (mode : Mode) : List Char → Option (Atom × List Char)
  | [] => none
  | c :: rest =>
    match c with
    | 'x' => (readCode? mode 2 0 rest).map fun (code, rest) => (.byte code, rest)
    | 'u' => readCodePoint? mode 4 rest
    | 'U' => readCodePoint? mode 8 rest
    | _ => (escaped? c).map (·, rest)

def readAtom? (mode : Mode) (c : Char) (rest : List Char) : Option (Atom × List Char) :=
  if c = '\\' then readEscape? mode rest else some (.char c, rest)

theorem suffix_of_readCode? {mode : Mode} {count value code : Nat} {text rest : List Char}
    (h : readCode? mode count value text = some (code, rest)) : rest <:+ text := by
  induction count generalizing value text with
  | zero =>
    cases h
    exact List.suffix_rfl
  | succ count ih =>
    have hskip := mode.skip_suffix text
    unfold readCode? at h
    split at h
    · cases h
    next c behind hs =>
      obtain ⟨digit, -, h⟩ := Option.bind_eq_some_iff.1 h
      exact (ih h).trans ((List.suffix_cons c behind).trans (hs ▸ hskip))

theorem suffix_of_readCodePoint? {mode : Mode} {count : Nat} {atom : Atom}
    {text rest : List Char} (h : readCodePoint? mode count text = some (atom, rest)) :
    rest <:+ text := by
  obtain ⟨⟨code, behind⟩, hcode, h⟩ := Option.bind_eq_some_iff.1 h
  obtain ⟨-, h⟩ := Option.ite_none_right_eq_some.1 h
  cases h
  exact suffix_of_readCode? hcode

theorem suffix_of_readEscape? {mode : Mode} {atom : Atom} {text rest : List Char}
    (h : readEscape? mode text = some (atom, rest)) : rest <:+ text := by
  unfold readEscape? at h
  split at h
  · cases h
  next c behind =>
    refine .trans ?_ (List.suffix_cons c behind)
    split at h
    · obtain ⟨⟨code, text⟩, hcode, h⟩ := Option.map_eq_some_iff.1 h
      cases h
      exact suffix_of_readCode? hcode
    · exact suffix_of_readCodePoint? h
    · exact suffix_of_readCodePoint? h
    · obtain ⟨atom, -, h⟩ := Option.map_eq_some_iff.1 h
      cases h
      exact List.suffix_rfl

theorem suffix_of_readAtom? {mode : Mode} {c : Char} {atom : Atom} {text rest : List Char}
    (h : readAtom? mode c text = some (atom, rest)) : rest <:+ text := by
  unfold readAtom? at h
  split at h
  · exact suffix_of_readEscape? h
  · cases h
    exact List.suffix_rfl

end Codebook.Pattern
