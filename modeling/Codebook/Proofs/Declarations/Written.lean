import Codebook.Proofs.Declarations.Block
import Codebook.Proofs.Declarations.Entry
import Codebook.Proofs.Number.Decimal
import Codebook.Proofs.Result
import Codebook.Settings

namespace Codebook.Declarations

open Codebook.Text

-- A block of declarations as it is written, and that it is read back.

-- What a line of a block says
inductive Content where
  | entry (name : String) (number : Int)
  | remark (text : String)
  | blank
deriving Repr, DecidableEq

def Content.text : Content → List Char
  | entry name number => name.toList ++ ' ' :: '=' :: ' ' :: ((toString number).toList ++ [','])
  | remark text => '/' :: '/' :: text.toList
  | blank => []

def Content.declared? : Content → Option (String × Int)
  | entry name number => some (name, number)
  | _ => none

-- A line with the blanks around what it says. The carriage return of a line that ends with two
-- characters is the last of them.
structure WrittenLine where
  margin : String := ""
  content : Content
  trail : String := ""
deriving Repr, DecidableEq

def WrittenLine.text (line : WrittenLine) : List Char :=
  line.margin.toList ++ (line.content.text ++ line.trail.toList)

-- A block and the lines around it. The last line may be empty, where a source ends with a line
-- feed.
structure WrittenBlock where
  before : List String := []
  opening : String
  lines : List WrittenLine
  margin : String := ""
  trail : String := ""
  after : List String := []
deriving Repr, DecidableEq

namespace WrittenBlock

def closing (block : WrittenBlock) : List Char :=
  block.margin.toList ++ (['\x7d'] ++ block.trail.toList)

def texts (block : WrittenBlock) : List (List Char) :=
  block.before.map String.toList ++ block.opening.toList ::
    (block.lines.map WrittenLine.text ++ block.closing :: block.after.map String.toList)

def source (block : WrittenBlock) : String := String.ofList (['\n'].intercalate block.texts)

def declared (block : WrittenBlock) : List (String × Int) :=
  block.lines.filterMap fun line => line.content.declared?

end WrittenBlock

-- The blocks that can be written. A name begins no comment and has no blank in it, and nothing but
-- the opening line has the marker.

def IsMargin (text : String) : Prop := ∀ c ∈ text.toList, isBlank c ∧ c ≠ '\n'

instance : DecidablePred IsMargin := fun text => List.decidableBAll _ text.toList

structure IsName (name : String) : Prop where
  ne_nil : name.toList ≠ []
  noBlank : ∀ c ∈ name.toList, isBlank c = false
  noComment : beginsComment name.toList = false

theorem IsName.notMem_blank {name : String} (h : IsName name) {c : Char} (hc : isBlank c) :
    c ∉ name.toList := fun hmem => by simp [h.noBlank c hmem] at hc

instance (name : String) : Decidable (IsName name) :=
  have : Decidable (∀ c ∈ name.toList, isBlank c = false) := List.decidableBAll _ name.toList
  decidable_of_iff (name.toList ≠ [] ∧ (∀ c ∈ name.toList, isBlank c = false) ∧
    beginsComment name.toList = false)
    ⟨fun ⟨ne, blank, comment⟩ => ⟨ne, blank, comment⟩, fun h => ⟨h.ne_nil, h.noBlank, h.noComment⟩⟩

-- A line that has no marker
structure IsPassed (marker : String) (line : List Char) : Prop where
  noLineFeed : '\n' ∉ line
  noMarker : ¬ marker.toList <:+: line

instance (marker : String) (line : List Char) : Decidable (IsPassed marker line) :=
  decidable_of_iff ('\n' ∉ line ∧ ¬ marker.toList <:+: line)
    ⟨fun ⟨feed, marker⟩ => ⟨feed, marker⟩, fun h => ⟨h.noLineFeed, h.noMarker⟩⟩

def Content.IsWritable (marker : String) : Content → Prop
  | entry name number => IsName name ∧ Number.inRange number
  | remark text => IsPassed marker ('/' :: '/' :: text.toList)
  | blank => True

instance (marker : String) : DecidablePred (Content.IsWritable marker)
  | .entry name number => inferInstanceAs (Decidable (IsName name ∧ Number.inRange number))
  | .remark text => inferInstanceAs (Decidable (IsPassed marker ('/' :: '/' :: text.toList)))
  | .blank => inferInstanceAs (Decidable True)

structure WrittenLine.IsWritable (marker : String) (line : WrittenLine) : Prop where
  margin : IsMargin line.margin
  content : line.content.IsWritable marker
  trail : IsMargin line.trail

instance (marker : String) : DecidablePred (WrittenLine.IsWritable marker) := fun line =>
  decidable_of_iff (IsMargin line.margin ∧ line.content.IsWritable marker ∧ IsMargin line.trail)
    ⟨fun ⟨margin, content, trail⟩ => ⟨margin, content, trail⟩,
      fun h => ⟨h.margin, h.content, h.trail⟩⟩

structure WrittenBlock.IsWritable (marker : String) (block : WrittenBlock) : Prop where
  before : ∀ line ∈ block.before, IsPassed marker line.toList
  opening_noLineFeed : '\n' ∉ block.opening.toList
  opening_marker : marker.toList <:+: block.opening.toList
  lines : ∀ line ∈ block.lines, line.IsWritable marker
  margin : IsMargin block.margin
  trail : IsMargin block.trail
  after : ∀ line ∈ block.after, IsPassed marker line.toList

-- What the reader sees of a written line

theorem trim_writtenLine {marker : String} {line : WrittenLine} (h : line.IsWritable marker) :
    trim line.text = trim line.content.text :=
  trim_margins (fun c hc => (h.margin c hc).1) (fun c hc => (h.trail c hc).1) line.content.text

theorem trim_remark (text : String) :
    trim (Content.remark text).text = '/' :: '/' :: trimEnd text.toList := by
  rw [Content.text, trim_cons (by decide), trimEnd_cons (by decide)]

theorem trim_entry {name : String} (hn : IsName name) (number : Int) :
    trim (Content.entry name number).text = (Content.entry name number).text := by
  obtain ⟨c, rest, hname⟩ := List.exists_cons_of_ne_nil hn.ne_nil
  have hc : isBlank c = false := hn.noBlank c (by simp [hname])
  apply trim_eq_self
  · simpa [Content.text, hname] using hc
  · have hlast : (Content.entry name number).text.getLast? = some ',' := by
      rw [Content.text, ← List.cons_append, ← List.cons_append, ← List.cons_append,
        ← List.append_assoc, List.getLast?_concat]
    intro c hc
    obtain rfl : ',' = c := Option.some.inj (hlast.symm.trans hc)
    decide

theorem isBlank_eq_false_of_mem_toString {n : Int} {c : Char} (h : c ∈ (toString n).toList) :
    isBlank c = false := by
  rcases Number.mem_toString h with hdigit | rfl
  · simp only [Char.isDigit, Bool.and_eq_true, decide_eq_true_eq] at hdigit
    obtain ⟨hlo, hhi⟩ := hdigit
    have hlo' : 48 ≤ c.toNat := hlo
    have hhi' : c.toNat ≤ 57 := hhi
    simp [isBlank]
    omega
  · decide

theorem readEntry_entry {name : String} (hn : IsName name) {number : Int}
    (hr : Number.inRange number) (span : Span) :
    readEntry ⟨String.ofList (Content.entry name number).text, span⟩
      = .ok (some ⟨name, toString number, number, span⟩) := by
  have hcode : ∀ c ∈ (toString number).toList ++ [','], isBlank c = false :=
    List.forall_mem_append.mpr ⟨fun c => isBlank_eq_false_of_mem_toString,
      List.forall_mem_singleton.mpr (by decide)⟩
  have hread := readEntry_assignment hn.ne_nil hn.noBlank (by simp) hcode hn.noComment span
  rw [withoutDelimiter_comma, Number.readLiteral_toString hr, String.ofList_toList,
    String.ofList_toList] at hread
  exact toOption_eq_some.mp hread

theorem readEntry_written {marker : String} {written : WrittenLine} (h : written.IsWritable marker)
    {line : Line} (hl : line.text = String.ofList (trim written.text)) :
    ∃ read, readEntry line = .ok read ∧
      read.map Entry.declared = written.content.declared? := by
  obtain ⟨text, span⟩ := line
  obtain rfl : text = String.ofList (trim written.text) := hl
  rw [trim_writtenLine h]
  have hwritable := h.content
  cases hcontent : written.content with
  | entry name number =>
      rw [hcontent] at hwritable
      rw [trim_entry hwritable.1]
      exact ⟨_, readEntry_entry hwritable.1 hwritable.2 span, rfl⟩
  | remark text =>
      refine ⟨none, ?_, rfl⟩
      rw [trim_remark]
      simp [readEntry, beginsComment]
  | blank => exact ⟨none, rfl, rfl⟩

theorem readLines_written {marker : String} {written : List WrittenLine}
    (h : ∀ line ∈ written, line.IsWritable marker) {body : List Line}
    (hb : body.map Line.text = written.map fun line => String.ofList (trim line.text)) :
    ∃ entries, readLines body = .ok entries ∧
      entries.map Entry.declared
        = written.filterMap fun line => line.content.declared? := by
  induction written generalizing body with
  | nil =>
      obtain rfl := List.map_eq_nil_iff.mp hb
      exact ⟨[], rfl, rfl⟩
  | cons first rest ih =>
      obtain ⟨hfirst, hrest⟩ := List.forall_mem_cons.mp h
      obtain ⟨line, behind, rfl, htext, hbehind⟩ := List.map_eq_cons_iff.mp hb
      obtain ⟨entries, hentries, hmap⟩ := ih hrest hbehind
      obtain ⟨read, hread, hdeclared⟩ := readEntry_written hfirst htext
      cases read with
      | none =>
          refine ⟨entries, ?_, ?_⟩
          · simp only [readLines, hread, bind, Except.bind, hentries]
          · rw [List.filterMap_cons, ← hdeclared, hmap]
            rfl
      | some entry =>
          refine ⟨entry :: entries, ?_, ?_⟩
          · simp only [readLines, hread, bind, Except.bind, hentries, pure, Except.pure]
          · rw [List.filterMap_cons, ← hdeclared, List.map_cons, hmap]
            rfl

-- The marker stands in the opening line only, and only the closing line is a brace.

theorem not_infix_append {a b : Char} {left right : List Char} (ha : a ∉ left) (hb : b ∉ right) :
    ¬ [a, b] <:+: left ++ right := by
  rintro ⟨front, behind, h⟩
  have hsplit : (front ++ [a]) ++ b :: behind = left ++ right := by simpa using h
  rcases List.append_eq_append_iff.mp hsplit with ⟨middle, rfl, -⟩ | ⟨middle, -, rfl⟩
  · simp at ha
  · simp at hb

section

variable {target : Target}

theorem marker_eq : target.marker.toList
    = ("enum " ++ target.enumName).toList ++ [' ', '\x7b'] := by
  simp [Target.marker]

-- A brace behind a blank is in the marker, and in no line that is passed over.
theorem not_infix_marker {text : List Char} (h : ¬ [' ', '\x7b'] <:+: text) :
    ¬ target.marker.toList <:+: text := by
  intro hmarker
  rw [marker_eq] at hmarker
  exact h ((List.suffix_append _ _).isInfix.trans hmarker)

theorem not_infix_marker_content {content : Content} (h : content.IsWritable target.marker) :
    ¬ target.marker.toList <:+: content.text := by
  cases content with
  | entry name number =>
      obtain ⟨hn, -⟩ := h
      have hblank : ' ' ∉ name.toList := hn.notMem_blank (by decide)
      have hbrace : '\x7b' ∉ (toString number).toList := fun hmem =>
        absurd (Number.mem_toString hmem) (by decide)
      exact not_infix_marker (not_infix_append hblank (by simpa using hbrace))
  | remark text => exact h.noMarker
  | blank => exact not_infix_marker (by simp [Content.text])

theorem not_opens {text : List Char} (h : ¬ target.marker.toList <:+: text) {line : Line}
    (hl : line.text = String.ofList (trim text)) :
    (Markers.ofEnum target.marker).opens line = false := by
  rw [Markers.opens, hl, String.toList_ofList, Bool.eq_false_iff, ne_eq, occursIn_iff]
  exact fun hmarker => h (hmarker.trans (infix_of_trim text))

theorem forall_not_opens {texts : List (List Char)} {found : List Line}
    (ht : ∀ text ∈ texts, ¬ target.marker.toList <:+: text)
    (hf : found.map Line.text = texts.map fun text => String.ofList (trim text)) :
    ∀ line ∈ found, (Markers.ofEnum target.marker).opens line = false := by
  intro line hline
  obtain ⟨text, htext, hl⟩ := List.mem_map.mp (hf ▸ List.mem_map_of_mem hline)
  exact not_opens (ht text htext) hl.symm

theorem opens_of_marker {text : List Char} (h : target.marker.toList <:+: text) {line : Line}
    (hl : line.text = String.ofList (trim text)) : (Markers.ofEnum target.marker).opens line := by
  have hf : ∀ c ∈ target.marker.toList.head?, isBlank c = false := by
    have hhead : target.marker.toList.head? = some 'e' := by simp [marker_eq]
    intro c hc
    obtain rfl : 'e' = c := Option.some.inj (hhead.symm.trans hc)
    decide
  have hb : ∀ c ∈ target.marker.toList.getLast?, isBlank c = false := by
    have hlast : target.marker.toList.getLast? = some '\x7b' := by
      rw [marker_eq, List.getLast?_append]
      rfl
    intro c hc
    obtain rfl : '\x7b' = c := Option.some.inj (hlast.symm.trans hc)
    decide
  rw [Markers.opens, hl, String.toList_ofList, occursIn_iff]
  exact infix_trim hf hb h

theorem closes_iff {text : List Char} {line : Line} (hl : line.text = String.ofList (trim text)) :
    (Markers.ofEnum target.marker).closes line ↔ trim text = ['\x7d'] := by
  have hclosing : (Markers.ofEnum target.marker).closing = String.ofList ['\x7d'] := rfl
  rw [Markers.closes, beq_iff_eq, hl, hclosing, String.ofList_inj]

theorem trim_written_ne_brace {line : WrittenLine} (h : line.IsWritable target.marker) :
    trim line.text ≠ ['\x7d'] := by
  rw [trim_writtenLine h]
  have hwritable := h.content
  cases hcontent : line.content with
  | entry name number =>
      rw [hcontent] at hwritable
      rw [trim_entry hwritable.1]
      intro hbrace
      have hequals : '=' ∈ (Content.entry name number).text := by simp [Content.text]
      rw [hbrace] at hequals
      exact absurd hequals (by decide)
  | remark text =>
      rw [trim_remark]
      simp
  | blank => decide

-- A line of the block is captured.
theorem captured_written {written : WrittenLine} (h : written.IsWritable target.marker)
    {line : Line} (hl : line.text = String.ofList (trim written.text)) :
    (Markers.ofEnum target.marker).opens line = false ∧
      (Markers.ofEnum target.marker).closes line = false := by
  have hcontent : line.text = String.ofList (trim written.content.text) := by
    rw [hl, trim_writtenLine h]
  refine ⟨not_opens (not_infix_marker_content h.content) hcontent, ?_⟩
  rw [Bool.eq_false_iff, ne_eq, closes_iff hl]
  exact trim_written_ne_brace h

theorem noLineFeed_writtenLine {line : WrittenLine} (h : line.IsWritable target.marker) :
    '\n' ∉ line.text := by
  have hcontent : '\n' ∉ line.content.text := by
    have hwritable := h.content
    cases hc : line.content with
    | entry name number =>
        rw [hc] at hwritable
        have hname : '\n' ∉ name.toList := hwritable.1.notMem_blank (by decide)
        have hcode : '\n' ∉ (toString number).toList := fun hmem =>
          absurd (Number.mem_toString hmem) (by decide)
        simpa [Content.text, hname] using hcode
    | remark text =>
        rw [hc] at hwritable
        exact hwritable.noLineFeed
    | blank => simp [Content.text]
  have hmargin : '\n' ∉ line.margin.toList := fun hmem => (h.margin _ hmem).2 rfl
  have htrail : '\n' ∉ line.trail.toList := fun hmem => (h.trail _ hmem).2 rfl
  simp [WrittenLine.text, hmargin, hcontent, htrail]

end

section

variable {target : Target} {block : WrittenBlock} (h : block.IsWritable target.marker)

include h

theorem noLineFeed_closing : '\n' ∉ block.closing := by
  have hmargin : '\n' ∉ block.margin.toList := fun hmem => (h.margin _ hmem).2 rfl
  have htrail : '\n' ∉ block.trail.toList := fun hmem => (h.trail _ hmem).2 rfl
  simp [WrittenBlock.closing, hmargin, htrail]

theorem trim_closing : trim block.closing = ['\x7d'] :=
  trim_margins (fun c hc => (h.margin c hc).1) (fun c hc => (h.trail c hc).1) ['\x7d']

theorem noLineFeed_texts : ∀ text ∈ block.texts, '\n' ∉ text := by
  rw [WrittenBlock.texts]
  refine List.forall_mem_append.mpr ⟨?_, List.forall_mem_cons.mpr ⟨h.opening_noLineFeed,
    List.forall_mem_append.mpr ⟨?_, List.forall_mem_cons.mpr ⟨noLineFeed_closing h, ?_⟩⟩⟩⟩
  · exact List.forall_mem_map.mpr fun line hline => (h.before line hline).noLineFeed
  · exact List.forall_mem_map.mpr fun line hline => noLineFeed_writtenLine (h.lines line hline)
  · exact List.forall_mem_map.mpr fun line hline => (h.after line hline).noLineFeed

-- The lines of the source are those of the block, but an empty line at the end is none.
theorem exists_sourceLines : ∃ behind, (∀ text ∈ behind, ¬ target.marker.toList <:+: text) ∧
    (sourceLines block.source).map Line.text
      = (block.before.map String.toList ++ block.opening.toList ::
          (block.lines.map WrittenLine.text ++ block.closing :: behind)).map
            fun text => String.ofList (trim text) := by
  have htexts : block.texts = (block.before.map String.toList ++ block.opening.toList ::
      block.lines.map WrittenLine.text) ++ block.closing :: block.after.map String.toList := by
    simp [WrittenBlock.texts]
  have hne : block.closing ≠ [] := by simp [WrittenBlock.closing]
  obtain ⟨behind, hbehind, hrows⟩ := exists_shown_behind (htexts ▸ noLineFeed_texts h) hne
  refine ⟨behind, fun text htext => ?_, ?_⟩
  · obtain ⟨line, hline, rfl⟩ := List.mem_map.mp (hbehind.subset htext)
    exact (h.after line hline).noMarker
  · have hshown := congrArg (List.map String.ofList) hrows
    rw [List.map_map, List.map_map] at hshown
    rw [sourceLines, map_text_linesFrom, WrittenBlock.source, String.toList_ofList, htexts,
      ← List.cons_append, ← List.append_assoc]
    exact hshown

-- The scan finds the block and captures its lines.
theorem exists_block : ∃ found, firstBlock (.ofEnum target.marker) block.source = .ok found ∧
    found.lines.map Line.text = block.lines.map fun line => String.ofList (trim line.text) := by
  obtain ⟨behind, hbehind, hlines⟩ := exists_sourceLines h
  rw [List.map_append, List.map_cons, List.map_append, List.map_cons] at hlines
  obtain ⟨front, rest, hsource, hfront, hrest⟩ := List.map_eq_append_iff.mp hlines
  obtain ⟨opening, rest, rfl, hopening, hrest⟩ := List.map_eq_cons_iff.mp hrest
  obtain ⟨body, rest, rfl, hbody, hrest⟩ := List.map_eq_append_iff.mp hrest
  obtain ⟨closing, after, rfl, hclosing, hafter⟩ := List.map_eq_cons_iff.mp hrest
  have hbefore : ∀ text ∈ block.before.map String.toList, ¬ target.marker.toList <:+: text :=
    List.forall_mem_map.mpr fun line hline => (h.before line hline).noMarker
  have hcaptured : ∀ line ∈ body, (Markers.ofEnum target.marker).opens line = false ∧
      (Markers.ofEnum target.marker).closes line = false := by
    intro line hline
    rw [List.map_map] at hbody
    obtain ⟨written, hwritten, hl⟩ := List.mem_map.mp (hbody ▸ List.mem_map_of_mem hline)
    exact captured_written (h.lines written hwritten) hl.symm
  have hclosed : closing.text = String.ofList (trim ['\x7d']) := by
    rw [hclosing, trim_closing h]
    rfl
  have hpassed : (Markers.ofEnum target.marker).opens closing = false :=
    not_opens (not_infix_marker (by decide)) hclosed
  have hscan := scanLines_block (forall_not_opens hbefore hfront)
    (opens_of_marker h.opening_marker hopening) hcaptured hpassed
    ((closes_iff hclosing).mpr (trim_closing h)) (forall_not_opens hbehind hafter)
  refine ⟨⟨opening.span, closing.span, body⟩, ?_, by rw [hbody, List.map_map]; rfl⟩
  simp only [firstBlock, blocks, scanSource, hsource, hscan, bind, Except.bind]

-- A block is read back as it was written, between other lines, with any blanks around its lines
-- and with comments and blank lines among them.
theorem readEntries_written : ∃ found entries,
    firstBlock (.ofEnum target.marker) block.source = .ok found ∧
      readEntries found = .ok entries ∧
      entries.map Entry.declared = block.declared := by
  obtain ⟨found, hfound, hlines⟩ := exists_block h
  obtain ⟨entries, hentries, hdeclared⟩ := readLines_written h.lines hlines
  exact ⟨found, entries, hfound, hentries, hdeclared⟩

end

def writtenExtremes : WrittenBlock where
  before := ["// generated\r", "declare namespace proto \x7b\r"]
  opening := "  enum ResponseCodeEnum \x7b\r"
  lines := [
    { margin := "\t", content := .entry "OK" 0, trail := "\r" },
    { margin := "    ", content := .remark " the ends of the range", trail := "\r" },
    { margin := "    ", content := .entry "LOWEST" (-9223372036854775808), trail := "\r" },
    { content := .blank, trail := "\r" },
    { content := .entry "HIGHEST" 9223372036854775807 }]
  margin := "  "
  after := ["\x7d", ""]

theorem readEntries_writtenExtremes : ∃ found entries,
    firstBlock (.ofEnum Target.status.marker) writtenExtremes.source = .ok found ∧
      readEntries found = .ok entries ∧
      entries.map Entry.declared
        = [("OK", 0), ("LOWEST", -9223372036854775808), ("HIGHEST", 9223372036854775807)] := by
  have h : writtenExtremes.IsWritable Target.status.marker :=
    { before := by decide, opening_noLineFeed := by decide, opening_marker := by decide
      lines := by decide, margin := by decide, trail := by decide, after := by decide }
  exact readEntries_written h

end Codebook.Declarations
