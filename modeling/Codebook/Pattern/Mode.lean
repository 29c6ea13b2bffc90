import Codebook.Text.Blank

namespace Codebook.Pattern

open Codebook.Text

-- How the characters of a pattern are read. A pattern is checked and not kept, since nothing
-- is ever matched with it.

structure Mode where
  -- whether characters are looked for, and not bytes
  unicode : Bool := true
  ignoresCase : Bool := false
  -- whether blanks and comments mean nothing
  spaced : Bool := false
deriving Repr, DecidableEq, Inhabited

-- What stands behind blanks and comments, given whether a comment has begun. It lasts to the
-- end of its line.
def behindBlanks (comment : Bool) : List Char → List Char
  | [] => []
  | c :: rest =>
    if comment then behindBlanks (c != '\n') rest
    else if isBlank c then behindBlanks false rest
    else if c = '#' then behindBlanks true rest
    else c :: rest

theorem behindBlanks_suffix (comment : Bool) (text : List Char) :
    behindBlanks comment text <:+ text := by
  induction text generalizing comment with
  | nil => simp [behindBlanks]
  | cons c rest ih =>
    unfold behindBlanks
    split
    · exact (ih _).trans (List.suffix_cons c rest)
    · split
      · exact (ih _).trans (List.suffix_cons c rest)
      · split
        · exact (ih _).trans (List.suffix_cons c rest)
        · exact List.suffix_rfl

namespace Mode

def skip (mode : Mode) (text : List Char) : List Char :=
  if mode.spaced then behindBlanks false text else text

theorem skip_suffix (mode : Mode) (text : List Char) : mode.skip text <:+ text := by
  unfold skip
  split
  · exact behindBlanks_suffix false text
  · exact List.suffix_rfl

-- The character that is seen ahead behind blanks. Of a comment only the number sign is passed
-- over.
def ahead? (mode : Mode) (text : List Char) : Option Char :=
  if mode.spaced then
    match trimStart text with
    | '#' :: rest => (trimStart rest).head?
    | rest => rest.head?
  else text.head?

def settings : List Char := ['i', 'm', 's', 'U', 'u', 'R', 'x', '-']

-- Letters of settings. No sign stands there twice, and something stands behind a minus.
def areSettings (text : List Char) : Bool :=
  text.all settings.contains && decide text.Nodup && text.getLast? != some '-'

-- Settings behind the minus are switched off
def set (mode : Mode) (text : List Char) : Mode :=
  let (on, off) := text.span (· != '-')
  let turn (setting : Char) (before : Bool) :=
    on.contains setting || before && !off.contains setting
  { unicode := turn 'u' mode.unicode
    ignoresCase := turn 'i' mode.ignoresCase
    spaced := turn 'x' mode.spaced }

-- Whether letters can be told from one another as the mode asks. No table of cases is at hand
-- for characters, only for bytes.
def tellsCases (mode : Mode) : Bool := !mode.unicode || !mode.ignoresCase

end Mode

end Codebook.Pattern
