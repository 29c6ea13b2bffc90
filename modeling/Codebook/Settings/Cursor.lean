import Codebook.Number.Literal
import Codebook.Number.Shortest
import Codebook.Settings.Fault

namespace Codebook.Settings

-- Reading JSON from left to right.

-- What is left of a text, behind a count of bytes
structure Cursor where
  rest : List Char
  offset : Nat
deriving Repr, DecidableEq, Inhabited

abbrev Reader := StateT Cursor (Except Fault)

namespace Reader

def peek : Reader (Option Char) := return (← get).rest.head?

-- Passes over one character
def skip : Reader Unit := modify fun cursor =>
  match cursor.rest with
  | c :: rest => ⟨rest, cursor.offset + c.utf8Size⟩
  | [] => cursor

-- A fault at the place that was reached
def fail {α : Type} (cause : Cause) : Reader α := do
  throw ⟨cause, (← get).offset⟩

-- A fault one byte further on, if there is one
def failNext {α : Type} (cause : Cause) : Reader α := do
  let cursor ← get
  throw ⟨cause, if cursor.rest.isEmpty then cursor.offset else cursor.offset + 1⟩

def isJsonBlank (c : Char) : Bool := c == ' ' || c == '\n' || c == '\t' || c == '\r'

def afterBlanks (offset : Nat) : List Char → Cursor
  | [] => ⟨[], offset⟩
  | c :: rest => if isJsonBlank c then afterBlanks (offset + 1) rest else ⟨c :: rest, offset⟩

-- The next character that is not blank
def next : Reader (Option Char) := do
  modify fun cursor => afterBlanks cursor.offset cursor.rest
  peek

-- The rest of a literal word
def word (expected : List Char) : Reader Unit :=
  match expected with
  | [] => return ()
  | c :: more => do
    match ← peek with
    | none => fail (.unfinished .value)
    | some found => if found = c then skip *> word more else failNext (.form .wordExpected)

end Reader

-- Strings

def hexValue (digits : List Char) : Option Nat := Number.digitsFrom 16 0 digits

-- Four hexadecimal digits in front of a text that stands at an offset
def hexEscape (offset : Nat) (text : List Char) : Except Fault Nat :=
  let digits := text.take 4
  if byteLength digits < 4 then .error ⟨.unfinished .string, offset + byteLength digits⟩
  else
    match hexValue digits with
    | some code => .ok code
    | none => .error ⟨.form .invalidEscape, offset + 4⟩

-- The character of the escape that follows `\u`, and the count of characters it takes. Two
-- escapes that are a surrogate pair are one character.
def codeEscape (offset : Nat) (text : List Char) : Except Fault (Char × Nat) := do
  let high ← hexEscape offset text
  if 0xDC00 ≤ high ∧ high ≤ 0xDFFF then throw ⟨.form .loneSurrogate, offset + 4⟩
  if high < 0xD800 ∨ 0xDBFF < high then return (Char.ofNat high, 4)
  match text.drop 4 with
  | '\\' :: 'u' :: second =>
    let low ← hexEscape (offset + 6) second
    if low < 0xDC00 ∨ 0xDFFF < low then throw ⟨.form .loneSurrogate, offset + 10⟩
    return (Char.ofNat ((high - 0xD800) * 0x400 + (low - 0xDC00) + 0x10000), 10)
  | [] => throw ⟨.unfinished .string, offset + 4⟩
  | ['\\'] => throw ⟨.unfinished .string, offset + 5⟩
  | '\\' :: _ => throw ⟨.form .escapeCut, offset + 6⟩
  | _ => throw ⟨.form .escapeCut, offset + 5⟩

-- The same for what follows a backslash
def escape (offset : Nat) (text : List Char) : Except Fault (Char × Nat) :=
  match text with
  | [] => .error ⟨.unfinished .string, offset⟩
  | '"' :: _ => .ok ('"', 1)
  | '\\' :: _ => .ok ('\\', 1)
  | '/' :: _ => .ok ('/', 1)
  | 'b' :: _ => .ok ('\x08', 1)
  | 'f' :: _ => .ok ('\x0c', 1)
  | 'n' :: _ => .ok ('\n', 1)
  | 'r' :: _ => .ok ('\r', 1)
  | 't' :: _ => .ok ('\t', 1)
  | 'u' :: rest => (codeEscape (offset + 1) rest).map fun (c, count) => (c, count + 1)
  | _ => .error ⟨.form .invalidEscape, offset + 1⟩

-- What a text holds up to the quote that closes it. Escapes are of ASCII characters.
def stringBody (offset : Nat) (text : List Char) : Except Fault (List Char × Cursor) :=
  match text with
  | [] => .error ⟨.unfinished .string, offset⟩
  | '"' :: rest => .ok ([], ⟨rest, offset + 1⟩)
  | '\\' :: rest => do
    let (c, count) ← escape (offset + 1) rest
    let (more, cursor) ← stringBody (offset + 1 + count) (rest.drop count)
    return (c :: more, cursor)
  | c :: rest =>
    if c.toNat < 0x20 then .error ⟨.form .control, offset + 1⟩
    else do
      let (more, cursor) ← stringBody (offset + c.utf8Size) rest
      return (c :: more, cursor)
termination_by text.length

-- A string behind its opening quote
def Reader.string : Reader String := do
  let cursor ← get
  let (text, behind) ← stringBody cursor.offset cursor.rest
  set behind
  return String.ofList text

-- Numbers, of which only a description is wanted

inductive Numeral where
  | integer (value : Int)
  | real (negative : Bool) (value : Number.Binary)
deriving Repr, DecidableEq, Inhabited

def Numeral.describe : Numeral → String
  | integer value => s!"integer `{value}`"
  | real negative value =>
    let sign := if negative then "-" else ""
    s!"floating point `{sign}{value.text}`"

def maxWord : Nat := Number.twoTo 64 - 1

-- The value of digits that stand behind those of a value, as long as it stays within a limit,
-- and their count
def fitting (limit value : Nat) : List Char → Nat × Nat
  | [] => (value, 0)
  | c :: rest =>
    match Number.digitBelow 10 c with
    | none => (value, 0)
    | some d =>
      if limit < 10 * value + d then (value, 0)
      else
        let (value, count) := fitting limit (10 * value + d) rest
        (value, count + 1)

namespace Reader

def digit : Reader (Option Nat) := do
  match ← peek with
  | some c => return Number.digitBelow 10 c
  | none => return none

-- Powers of ten up to this one are numbers of their own
def maxPower : Nat := 308

-- A significand times a power of ten, which is at most `maxPower` away from one
def scaleByPower (value : Number.Binary) (exponent : Int) : Reader Number.Binary := do
  let power := Number.Binary.ofNat (Number.tenTo exponent.natAbs)
  if 0 ≤ exponent then
    let product := value.mul power
    if product.isFinite then return product else fail (.form .numberRange)
  else return value.div power

-- Powers further away are reached in steps, and three steps down lead to zero
def scaleSteps (steps : Nat) (value : Number.Binary) (exponent : Int) : Reader Number.Binary :=
  if exponent.natAbs ≤ maxPower then scaleByPower value exponent
  else if value.isZero then return value
  else if 0 ≤ exponent then fail (.form .numberRange)
  else
    match steps with
    | 0 => return ⟨0, 0⟩
    | steps + 1 =>
      scaleSteps steps (value.div (Number.Binary.ofNat (Number.tenTo maxPower)))
        (exponent + maxPower)

def real (negative : Bool) (significand : Nat) (exponent : Int) : Reader Numeral := do
  return .real negative (← scaleSteps 4 (Number.Binary.ofNat significand) exponent)

-- Passes over ASCII characters
def advance (count : Nat) : Reader Unit := modify fun cursor =>
  ⟨cursor.rest.drop count, cursor.offset + count⟩

-- Passes over digits and counts them
def skipDigits : Reader Nat := do
  let count := ((← get).rest.takeWhile fun c => (Number.digitBelow 10 c).isSome).length
  advance count
  return count

-- Reads digits that stand behind those of a value, as long as it stays below a limit, and
-- counts them
def digitsWithin (limit value : Nat) : Reader (Nat × Nat) := do
  let (value, count) := fitting limit value (← get).rest
  advance count
  return (value, count)

-- A number behind its `e`. An exponent that does not fit a word of 32 bits decides about the
-- number by itself.
def exponent (negative : Bool) (significand : Nat) (start : Int) : Reader Numeral := do
  skip
  let down ← match ← peek with
    | some '+' => skip *> pure false
    | some '-' => skip *> pure true
    | _ => pure false
  if (← peek).isNone then fail (.unfinished .value)
  match ← digit with
  | none => failNext (.form .invalidNumber)
  | some d =>
    skip
    let (value, _) ← digitsWithin (Number.twoTo 31 - 1) d
    if (← digit).isSome then
      skip
      if significand ≠ 0 ∧ !down then fail (.form .numberRange)
      let _ ← skipDigits
      return .real negative ⟨0, 0⟩
    real negative significand (if down then start - value else start + value)

def isExponentMark (c : Option Char) : Bool := c == some 'e' || c == some 'E'

-- A number behind its point. `shift` counts the digits in front that did not fit a word.
def fraction (negative : Bool) (significand shift : Nat) : Reader Numeral := do
  skip
  let (value, count) ← digitsWithin maxWord significand
  let passed ← skipDigits
  if count + passed = 0 then
    if (← peek).isSome then failNext (.form .invalidNumber) else fail (.unfinished .value)
  let start : Int := (shift : Int) - count
  if isExponentMark (← peek) then exponent negative value start else real negative value start

-- A number behind its integer digits
def numberTail (negative : Bool) (significand shift : Nat) : Reader Numeral := do
  let c ← peek
  if c = some '.' then fraction negative significand shift
  else if isExponentMark c then exponent negative significand shift
  else if shift ≠ 0 then real negative significand shift
  else if !negative then return .integer significand
  else if 0 < significand ∧ significand ≤ Number.twoTo 63 then return .integer (-significand)
  else return .real true (Number.Binary.ofNat significand)

-- A number behind its sign
def number (negative : Bool) : Reader Numeral := do
  if (← peek).isNone then fail (.unfinished .value)
  match ← digit with
  | none => failNext (.form .invalidNumber)
  | some 0 =>
    skip
    if (← digit).isSome then failNext (.form .invalidNumber)
    numberTail negative 0 0
  | some d =>
    skip
    let (value, _) ← digitsWithin maxWord d
    numberTail negative value (← skipDigits)

-- A value of a type that is not expected here
def wrongType {α : Type} (expected : String) : Reader α := do
  let wrong (found : String) : Reader α := fail (.meaning (.wrongType found expected))
  match ← peek with
  | some 'n' =>
    skip
    word ['u', 'l', 'l']
    wrong "null"
  | some 't' =>
    skip
    word ['r', 'u', 'e']
    wrong "boolean `true`"
  | some 'f' =>
    skip
    word ['a', 'l', 's', 'e']
    wrong "boolean `false`"
  | some '-' =>
    skip
    wrong (← number true).describe
  | some '"' =>
    skip
    wrong ("string " ++ Text.quoted (← string))
  | some '[' => wrong "sequence"
  | some '\x7b' => wrong "map"
  | _ =>
    if (← digit).isSome then wrong (← number false).describe
    else failNext (.form .valueExpected)

end Reader

end Codebook.Settings
