import Codebook.Proofs.Declarations.Block
import Codebook.Proofs.Declarations.Entry
import Codebook.Proofs.Text.Blank
import Codebook.Proofs.Text.Lines
import Codebook.Proofs.Text.Split
import Mathlib.Data.List.Infix

namespace Codebook.Declarations

open Codebook.Text

-- A block is read by lines, and no comment is carried from one line to the next. What the reader
-- makes of it is compared with what is left of the text without its comments.

-- Where a character stands: in the code, in a comment up to the end of the line, or in a comment
-- up to its closing mark
inductive Place where
  | code
  | line
  | inner
deriving Repr, DecidableEq

-- A text without the comments in it. The text begins at a place.
def outside : Place → List Char → List Char
  | _, [] => []
  | .code, '/' :: '/' :: rest => outside .line rest
  | .code, '/' :: '*' :: rest => outside .inner rest
  | .code, c :: rest => c :: outside .code rest
  | .line, '\n' :: rest => '\n' :: outside .code rest
  | .line, _ :: rest => outside .line rest
  | .inner, '*' :: '/' :: rest => outside .code rest
  | .inner, _ :: rest => outside .inner rest

-- The place behind a text
def placeBehind : Place → List Char → Place
  | place, [] => place
  | .code, '/' :: '/' :: rest => placeBehind .line rest
  | .code, '/' :: '*' :: rest => placeBehind .inner rest
  | .code, _ :: rest => placeBehind .code rest
  | .line, '\n' :: rest => placeBehind .code rest
  | .line, _ :: rest => placeBehind .line rest
  | .inner, '*' :: '/' :: rest => placeBehind .code rest
  | .inner, _ :: rest => placeBehind .inner rest

theorem head_of_append {d : Char} {front rest more : List Char} (hr : ∀ c ∈ rest.head?, c ≠ d)
    (h : front ++ rest = d :: more) : ∃ behind, front = d :: behind := by
  cases front with
  | nil =>
      rw [List.nil_append] at h
      exact absurd rfl (hr d (by simp [h]))
  | cons c front => exact ⟨front, by rw [(List.cons.inj h).1]⟩

-- No mark is parted where a text is cut in front of another sign.
theorem outside_append (place : Place) {front rest : List Char}
    (h : ∀ c ∈ rest.head?, c ≠ '/' ∧ c ≠ '*') :
    outside place (front ++ rest)
      = outside place front ++ outside (placeBehind place front) rest := by
  have hslash : ∀ c ∈ rest.head?, c ≠ '/' := fun c hc => (h c hc).1
  have hstar : ∀ c ∈ rest.head?, c ≠ '*' := fun c hc => (h c hc).2
  fun_induction outside place front with
  | case1 place => rfl
  | case2 front ih => exact ih
  | case3 front ih => exact ih
  | case4 c front hline hblock ih =>
      have hline' : ∀ more, c = '/' → front ++ rest = '/' :: more → False := by
        intro more hc hmore
        obtain ⟨behind, hfront⟩ := head_of_append hslash hmore
        exact hline behind hc hfront
      have hblock' : ∀ more, c = '/' → front ++ rest = '*' :: more → False := by
        intro more hc hmore
        obtain ⟨behind, hfront⟩ := head_of_append hstar hmore
        exact hblock behind hc hfront
      rw [List.cons_append, outside.eq_4 _ _ hline' hblock', placeBehind.eq_4 _ _ hline hblock, ih,
        List.cons_append]
  | case5 front ih => exact congrArg (List.cons '\n') ih
  | case6 c front hfeed ih =>
      rw [List.cons_append, outside.eq_6 _ _ hfeed, placeBehind.eq_6 _ _ hfeed, ih]
  | case7 front ih => exact ih
  | case8 c front hcloses ih =>
      have hcloses' : ∀ more, c = '*' → front ++ rest = '/' :: more → False := by
        intro more hc hmore
        obtain ⟨behind, hfront⟩ := head_of_append hslash hmore
        exact hcloses behind hc hfront
      rw [List.cons_append, outside.eq_8 _ _ hcloses', placeBehind.eq_8 _ _ hcloses, ih]

-- A text without a mark in it
structure NoMark (text : List Char) : Prop where
  noLine : ¬ ['/', '/'] <:+: text
  noBlock : ¬ ['/', '*'] <:+: text

instance : DecidablePred NoMark := fun text =>
  decidable_of_iff (¬ ['/', '/'] <:+: text ∧ ¬ ['/', '*'] <:+: text)
    ⟨fun ⟨line, block⟩ => ⟨line, block⟩, fun h => ⟨h.noLine, h.noBlock⟩⟩

theorem outside_of_noMark {text : List Char} (h : NoMark text) :
    outside .code text = text ∧ placeBehind .code text = .code := by
  induction text with
  | nil => exact ⟨rfl, rfl⟩
  | cons c rest ih =>
      have hrest : NoMark rest :=
        ⟨fun hline => h.noLine (List.infix_cons hline),
          fun hblock => h.noBlock (List.infix_cons hblock)⟩
      have hline : ∀ more, c = '/' → rest = '/' :: more → False := by
        rintro more rfl rfl
        exact h.noLine (List.prefix_append ['/', '/'] more).isInfix
      have hblock : ∀ more, c = '/' → rest = '*' :: more → False := by
        rintro more rfl rfl
        exact h.noBlock (List.prefix_append ['/', '*'] more).isInfix
      obtain ⟨houtside, hplace⟩ := ih hrest
      exact ⟨by rw [outside.eq_4 _ _ hline hblock, houtside],
        by rw [placeBehind.eq_4 _ _ hline hblock, hplace]⟩

theorem mem_of_mem_outside {place : Place} {text : List Char} {c : Char}
    (h : c ∈ outside place text) : c ∈ text := by
  fun_induction outside place text with
  | case1 place => exact h
  | case2 rest ih => exact List.mem_cons_of_mem _ (List.mem_cons_of_mem _ (ih h))
  | case3 rest ih => exact List.mem_cons_of_mem _ (List.mem_cons_of_mem _ (ih h))
  | case4 d rest hline hblock ih =>
      exact (List.mem_cons.mp h).elim (fun hc => hc ▸ List.mem_cons_self)
        fun hc => List.mem_cons_of_mem _ (ih hc)
  | case5 rest ih =>
      exact (List.mem_cons.mp h).elim (fun hc => hc ▸ List.mem_cons_self)
        fun hc => List.mem_cons_of_mem _ (ih hc)
  | case6 d rest hfeed ih => exact List.mem_cons_of_mem _ (ih h)
  | case7 rest ih => exact List.mem_cons_of_mem _ (List.mem_cons_of_mem _ (ih h))
  | case8 d rest hcloses ih => exact List.mem_cons_of_mem _ (ih h)

-- The place where the next line begins
def Place.nextLine : Place → Place
  | inner => inner
  | _ => code

-- A line feed is left of a text, unless it stands in a comment up to its closing mark.
theorem outside_lineFeed (place : Place) (rest : List Char) :
    outside place ('\n' :: rest)
      = (if place = .inner then [] else ['\n']) ++ outside place.nextLine rest := by
  cases place <;> rfl

-- The first fields of a text with the blanks in front of them, and what is behind them
def splitFields : Nat → List Char → List Char × List Char
  | 0, text => ([], text)
  | count + 1, text =>
    let field := text.dropWhile isBlank
    let (front, behind) := splitFields count (field.dropWhile (!isBlank ·))
    (text.takeWhile isBlank ++ (field.takeWhile (!isBlank ·) ++ front), behind)

theorem append_splitFields (count : Nat) (text : List Char) :
    (splitFields count text).1 ++ (splitFields count text).2 = text := by
  induction count generalizing text with
  | zero => rfl
  | succ count ih =>
      simp only [splitFields, List.append_assoc]
      rw [ih, List.takeWhile_append_dropWhile, List.takeWhile_append_dropWhile]

theorem isBlank_head_dropWhile (text : List Char) :
    ∀ c ∈ (text.dropWhile (!isBlank ·)).head?, isBlank c := by
  intro c hc
  have hhead := List.head?_dropWhile_not (!isBlank ·) text
  rw [Option.mem_def] at hc
  simpa [hc] using hhead

theorem isBlank_head_splitFields (count : Nat) (text : List Char) :
    ∀ c ∈ (splitFields (count + 1) text).2.head?, isBlank c := by
  induction count generalizing text with
  | zero => exact isBlank_head_dropWhile _
  | succ count ih => exact ih _

theorem isBlank_head_splitFields_fst (count : Nat) {text : List Char}
    (h : ∀ c ∈ text.head?, isBlank c) : ∀ c ∈ (splitFields count text).1.head?, isBlank c := by
  intro c hc
  refine h c ?_
  rw [← append_splitFields count text, List.head?_append, Option.mem_def.mp hc]
  rfl

-- The first field of a text that begins with one
theorem takeWhile_field {c : Char} (hc : isBlank c = false) (rest : List Char) :
    (c :: rest).takeWhile (!isBlank ·) ≠ [] ∧
      ∀ d ∈ (c :: rest).takeWhile (!isBlank ·), isBlank d = false := by
  refine ⟨by simp [hc], fun d hd => ?_⟩
  simpa using List.mem_takeWhile_imp hd

theorem fieldsFrom_splitFields (count column : Nat) (text : List Char) :
    fieldsFrom column (splitFields count text).1 = (fieldsFrom column text).take count := by
  induction count generalizing column text with
  | zero => rfl
  | succ count ih =>
      have hblanks : ∀ c ∈ text.takeWhile isBlank, isBlank c := fun c => List.mem_takeWhile_imp
      have htext : fieldsFrom column text
          = fieldsFrom (column + (text.takeWhile isBlank).length) (text.dropWhile isBlank) := by
        rw [← fieldsFrom_blanks hblanks, List.takeWhile_append_dropWhile]
      simp only [splitFields]
      rw [fieldsFrom_blanks hblanks, htext]
      cases hfield : text.dropWhile isBlank with
      | nil => simpa [fieldsFrom] using ih (column + (text.takeWhile isBlank).length) []
      | cons c more =>
          have hc : isBlank c = false := by
            have hhead := List.head?_dropWhile_not isBlank text
            simpa [hfield] using hhead
          obtain ⟨hword, hnone⟩ := takeWhile_field hc more
          have hrest := isBlank_head_dropWhile (c :: more)
          have hfront := isBlank_head_splitFields_fst count hrest
          have hsplit := List.takeWhile_append_dropWhile (p := (!isBlank ·)) (l := c :: more)
          conv_rhs => rw [← hsplit]
          rw [fieldsFrom_append hword hnone hfront, fieldsFrom_append hword hnone hrest, ih,
            List.take_succ_cons]

-- What is left of a text is read by rows. A row that is not blank gives a name a code.

def assignment? (row : List Char) : Option (String × Int) :=
  match fieldsFrom 0 row with
  | [name, equals, code] =>
    if equals.text = ['='] then
      (Number.readLiteral (withoutDelimiter code.text)).map (String.ofList name.text, ·)
    else none
  | _ => none

def readRow (row : List Char) : Option (List (String × Int)) :=
  if row.all isBlank then some [] else (assignment? row).map ([·])

def readRows : List (List Char) → Option (List (String × Int))
  | [] => some []
  | row :: rest => do return (← readRow row) ++ (← readRows rest)

def readPlain (text : List Char) : Option (List (String × Int)) := readRows (splitOn '\n' text)

theorem readRow_append_blanks {blanks : List Char} (hb : ∀ c ∈ blanks, isBlank c)
    (row : List Char) : readRow (row ++ blanks) = readRow row := by
  have hall : blanks.all isBlank := List.all_eq_true.mpr hb
  rw [readRow, readRow, assignment?, assignment?, fieldsFrom_append_blanks hb, List.all_append,
    hall, Bool.and_true]

theorem readPlain_row {row : List Char} (h : '\n' ∉ row) : readPlain row = readRow row := by
  rw [readPlain, splitOn_of_notMem h, readRows, readRows]
  cases readRow row <;> simp

theorem readPlain_lineFeed {row : List Char} (h : '\n' ∉ row) {read behind : List (String × Int)}
    {text : List Char} (hr : readRow row = some read) (ht : readPlain text = some behind) :
    readPlain (row ++ '\n' :: text) = some (read ++ behind) := by
  rw [readPlain] at ht
  simp only [readPlain, splitOn_append_separator h, readRows, hr, ht]
  rfl

-- Lines that keep their comments apart from their values. A line that the reader passes over holds
-- nothing but comments. Any other begins outside of comments, its fields have no mark in them and
-- nothing but comments is behind them.

def Line.isPassed (line : Line) : Bool :=
  line.text.toList.isEmpty || beginsComment line.text.toList

structure LineKeepsApart (place : Place) (line : Line) : Prop where
  passed : line.isPassed → ∀ c ∈ outside place line.text.toList, isBlank c
  begins : ¬ line.isPassed → place = .code
  fields : ¬ line.isPassed → NoMark (splitFields 3 line.text.toList).1
  behind : ¬ line.isPassed → ∀ c ∈ outside .code (splitFields 3 line.text.toList).2, isBlank c

instance (place : Place) : DecidablePred (LineKeepsApart place) := fun line =>
  have (text : List Char) : Decidable (∀ c ∈ text, isBlank c) := List.decidableBAll _ text
  decidable_of_iff ((line.isPassed → ∀ c ∈ outside place line.text.toList, isBlank c) ∧
      (¬ line.isPassed → place = .code) ∧
      (¬ line.isPassed → NoMark (splitFields 3 line.text.toList).1) ∧
      (¬ line.isPassed → ∀ c ∈ outside .code (splitFields 3 line.text.toList).2, isBlank c))
    ⟨fun ⟨passed, begins, fields, behind⟩ => ⟨passed, begins, fields, behind⟩,
      fun h => ⟨h.passed, h.begins, h.fields, h.behind⟩⟩

def KeepsApartFrom : Place → List Line → Prop
  | _, [] => True
  | place, line :: rest =>
    LineKeepsApart place line ∧ KeepsApartFrom (placeBehind place line.text.toList).nextLine rest

def decideKeepsApartFrom : (place : Place) → (lines : List Line) →
    Decidable (KeepsApartFrom place lines)
  | _, [] => inferInstanceAs (Decidable True)
  | place, line :: rest =>
    have := decideKeepsApartFrom (placeBehind place line.text.toList).nextLine rest
    inferInstanceAs (Decidable (LineKeepsApart place line ∧
      KeepsApartFrom (placeBehind place line.text.toList).nextLine rest))

instance (place : Place) : DecidablePred (KeepsApartFrom place) := decideKeepsApartFrom place

def Block.KeepsApart (block : Block) : Prop := KeepsApartFrom .code block.lines

instance : DecidablePred Block.KeepsApart := fun block =>
  inferInstanceAs (Decidable (KeepsApartFrom .code block.lines))

-- Lines with the line feed in front of each
def textOfLines (lines : List Line) : List Char :=
  lines.flatMap fun line => '\n' :: line.text.toList

theorem head_textOfLines (lines : List Line) :
    ∀ c ∈ (textOfLines lines).head?, c ≠ '/' ∧ c ≠ '*' := by
  cases lines with
  | nil => simp [textOfLines]
  | cons line rest => simp [textOfLines]

-- What stands in a block behind the line that opens it
def Block.text (block : Block) : List Char := textOfLines block.lines

theorem readEntry_eq_none_iff {line : Line} : readEntry line = .ok none ↔ line.isPassed := by
  unfold readEntry Line.isPassed
  simp only
  split
  · simp_all
  · cases readFields line (fieldsFrom 0 line.text.toList) <;> simp_all [Except.map]

theorem readRow_of_blank {row : List Char} (h : ∀ c ∈ row, isBlank c) : readRow row = some [] := by
  rw [readRow, if_pos (List.all_eq_true.mpr h)]

theorem readRow_of_fields {row : List Char} {name equals code : Field} {number : Int}
    (hf : fieldsFrom 0 row = [name, equals, code]) (he : equals.text = ['='])
    (hn : Number.readLiteral (withoutDelimiter code.text) = some number) :
    readRow row = some [(String.ofList name.text, number)] := by
  have hfilled : ¬ row.all isBlank := by
    intro hall
    have hnone := fieldsFrom_blanks (List.all_eq_true.mp hall) 0 []
    rw [List.append_nil, hf] at hnone
    exact absurd hnone (by simp [fieldsFrom])
  simp [readRow, hfilled, assignment?, hf, he, hn]

-- What is left of a line without its comments says what the reader takes from it.
theorem readRow_of_readEntry {place : Place} {line : Line} {read : Option Entry}
    (hk : LineKeepsApart place line) (hr : readEntry line = .ok read) :
    readRow (outside place line.text.toList) = some (read.toList.map Entry.declared) := by
  cases read with
  | none => exact readRow_of_blank (hk.passed (readEntry_eq_none_iff.mp hr))
  | some entry =>
      have hread : ¬ line.isPassed := by
        rw [← readEntry_eq_none_iff, hr]
        simp
      obtain rfl := hk.begins hread
      obtain ⟨name, equals, code, rest, number, hfields, he, hn, rfl⟩ := eq_of_readEntry hr
      have hfront : fieldsFrom 0 (splitFields 3 line.text.toList).1 = [name, equals, code] := by
        rw [fieldsFrom_splitFields, hfields]
        rfl
      obtain ⟨houtside, hplace⟩ := outside_of_noMark (hk.fields hread)
      have hhead : ∀ c ∈ (splitFields 3 line.text.toList).2.head?, c ≠ '/' ∧ c ≠ '*' := by
        intro c hc
        have hblank := isBlank_head_splitFields 2 line.text.toList c hc
        constructor <;> rintro rfl <;> exact absurd hblank (by decide)
      rw [← append_splitFields 3 line.text.toList, outside_append .code hhead, houtside, hplace,
        readRow_append_blanks (hk.behind hread)]
      exact readRow_of_fields hfront he hn

-- The induction is on the lines. In front of them stands the row that the last line has begun,
-- which goes on with the next line when a comment is still open.
theorem readPlain_pending {place : Place} {front : List Char} {read : List (String × Int)}
    {lines : List Line} {entries : List Entry} (hf : '\n' ∉ front) (hr : readRow front = some read)
    (hl : ∀ line ∈ lines, '\n' ∉ line.text.toList) (hk : KeepsApartFrom place.nextLine lines)
    (he : readLines lines = .ok entries) :
    readPlain (front ++ outside place (textOfLines lines))
      = some (read ++ entries.map Entry.declared) := by
  induction lines generalizing place front read entries with
  | nil =>
      obtain rfl := Except.ok.inj he
      have hnone : outside place (textOfLines []) = [] := by cases place <;> rfl
      rw [hnone, List.append_nil, readPlain_row hf, hr, List.map_nil, List.append_nil]
  | cons line rest ih =>
      obtain ⟨hline, hlines⟩ := List.forall_mem_cons.mp hl
      obtain ⟨hapart, hbehind⟩ := hk
      obtain ⟨first, behind, hfirst, hrest, rfl⟩ := exists_of_readLines_cons he
      have hshown : '\n' ∉ outside place.nextLine line.text.toList := mt mem_of_mem_outside hline
      have hread := readRow_of_readEntry hapart hfirst
      have htext : textOfLines (line :: rest)
          = '\n' :: (line.text.toList ++ textOfLines rest) := rfl
      rw [htext, outside_lineFeed, outside_append _ (head_textOfLines rest)]
      by_cases hinner : place = .inner
      · subst hinner
        have hpassed : line.isPassed := by
          by_contra hread
          exact absurd (hapart.begins hread) (by decide)
        have hnone : first = none :=
          Except.ok.inj (hfirst.symm.trans (readEntry_eq_none_iff.mpr hpassed))
        have hblanks := hapart.passed hpassed
        have hrow := readRow_append_blanks hblanks front
        rw [hr] at hrow
        rw [if_pos rfl, List.nil_append, ← List.append_assoc, hnone]
        exact ih (by simp [hf, hshown]) hrow hlines hbehind hrest
      · rw [if_neg hinner, List.singleton_append, List.map_append]
        exact readPlain_lineFeed hf hr (ih hshown hread hlines hbehind hrest)

-- A captured block whose comments keep apart from its values is read as if it had no comments.
theorem readPlain_outside {markers : Markers} {source : String} {found : List Block}
    {block : Block} {entries : List Entry} (hb : blocks markers source = .ok found)
    (hm : block ∈ found) (he : readEntries block = .ok entries) (hk : block.KeepsApart) :
    readPlain (outside .code block.text) = some (entries.map Entry.declared) := by
  have hnone : readRow [] = some [] := rfl
  exact readPlain_pending List.not_mem_nil hnone (noLineFeed_of_mem_blocks hb hm) hk he

def shortMarkers : Markers := .ofEnum "enum E \x7b"

-- The block of a source that has one, read by lines
def onlyBlock (source : String) : Block :=
  ((firstBlock shortMarkers source).toOption).getD default

def onlyEntries (source : String) : List Entry :=
  ((readEntries (onlyBlock source)).toOption).getD []

structure Captured (source : String) : Prop where
  blocks : blocks shortMarkers source = .ok [onlyBlock source]
  entries : readEntries (onlyBlock source) = .ok (onlyEntries source)

instance (source : String) : Decidable (Captured source) :=
  decidable_of_iff (Declarations.blocks shortMarkers source = .ok [onlyBlock source] ∧
      readEntries (onlyBlock source) = .ok (onlyEntries source))
    ⟨fun ⟨blocks, entries⟩ => ⟨blocks, entries⟩, fun h => ⟨h.blocks, h.entries⟩⟩

def commentsApart : String :=
  "enum E \x7b\n// first\nA = 0, // zero\n/* A = 1,\n * B = 1\n */\n\n"
    ++ "B = 2 /* the last\n * of them */\n\x7d"

theorem readPlain_outside_apart : Captured commentsApart ∧
    (onlyBlock commentsApart).KeepsApart ∧
    readPlain (outside .code (onlyBlock commentsApart).text)
      = some ((onlyEntries commentsApart).map Entry.declared) ∧
    (onlyEntries commentsApart).map Entry.declared = [("A", 0), ("B", 2)] := by
  obtain ⟨hcaptured, hapart, hdeclared⟩ : Captured commentsApart ∧
      (onlyBlock commentsApart).KeepsApart ∧
      (onlyEntries commentsApart).map Entry.declared = [("A", 0), ("B", 2)] := by decide +kernel
  exact ⟨hcaptured, hapart,
    readPlain_outside hcaptured.blocks List.mem_cons_self hcaptured.entries hapart, hdeclared⟩

def hiddenValue : String := "enum E \x7b\n/* zero */ A = 0,\nB = 1\n\x7d\n"

def givenValue : String := "enum E \x7b\n/*\nA = 0,\n*/\nB = 1\n\x7d\n"

-- A value behind a comment on its line is hidden, and one inside of a comment is taken.
theorem comments_hide_and_give_values :
    (Captured hiddenValue ∧ (onlyEntries hiddenValue).map Entry.declared = [("B", 1)] ∧
      readPlain (outside .code (onlyBlock hiddenValue).text) = some [("A", 0), ("B", 1)]) ∧
    Captured givenValue ∧ (onlyEntries givenValue).map Entry.declared = [("A", 0), ("B", 1)] ∧
      readPlain (outside .code (onlyBlock givenValue).text) = some [("B", 1)] :=
  by decide +kernel

end Codebook.Declarations
