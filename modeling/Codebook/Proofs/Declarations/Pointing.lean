import Codebook.Proofs.Declarations.Lines
import Codebook.Proofs.Declarations.Table
import Codebook.Proofs.Declarations.Words
import Codebook.Proofs.Diagnostic.Carets

namespace Codebook.Declarations

open Codebook.Text

-- What a fault in a block is about, and that the fault points at it. A word is found by its column
-- in its line, and a line by the column of its first character in its row.

section

variable {source : String} {line : Line}

-- The span of a field is found from the text of the line in front of it.
theorem fieldSpan_eq (hn : '\n' ∉ line.text.toList) {field : Field} {front behind : List Char}
    (ht : line.text.toList = front ++ (field.text ++ behind)) (hc : field.column = front.length) :
    line.fieldSpan field = Span.covering (line.span.start.after front) field.text := by
  have hfront : '\n' ∉ front := fun hf => hn (by simp [ht, hf])
  have hfield : '\n' ∉ field.text := fun hf => hn (by simp [ht, hf])
  rw [Line.fieldSpan, Span.covering, after_of_notMem hfield, after_of_notMem hfront, hc, ht,
    List.take_left]

theorem covers_after {source : List Char} {span : Span} {front text behind : List Char}
    (h : span.Covers source (front ++ (text ++ behind))) :
    (Span.covering (span.start.after front) text).Covers source text := by
  obtain ⟨before, rest, rfl, rfl⟩ := h
  refine ⟨before ++ front, behind ++ rest, by simp, ?_⟩
  rw [Position.after_append]
  rfl

-- A stretch of a line that ends without a blank is pointed at by what covers it.
theorem pointsAt_of_isOfRow {i : Nat} {row : List Char} (hr : (rows source.toList)[i]? = some row)
    (h : line.IsOfRow source.toList i row) {front text behind : List Char}
    (ht : line.text.toList = front ++ (text ++ behind)) (hne : text ≠ [])
    (hl : ∀ c ∈ text.getLast?, isBlank c = false) {d : Diagnostic}
    (hd : d.span.Covers source.toList text) (hi : d.span.start.line = line.number)
    (hc : d.span.start.column = line.span.start.column + front.length) :
    d.PointsAt source text := by
  obtain ⟨margin, trail, hmargin, -, hrow⟩ := h.row_eq
  have hlast : ∀ c ∈ ((margin ++ front) ++ text).getLast?, isBlank c = false := by
    rwa [List.getLast?_append_of_ne_nil _ hne]
  obtain ⟨rest, hrest⟩ := withoutLineEnd_append hlast (behind ++ trail)
  have hshown : (Text.lines source)[d.span.start.line]?
      = some (String.ofList ((margin ++ front) ++ (text ++ rest))) := by
    have hparts : row = ((margin ++ front) ++ text) ++ (behind ++ trail) := by
      rw [hrow, ht]
      simp
    rw [hi, h.number_eq, Text.lines, List.getElem?_map, hr, hparts, Option.map_some, hrest,
      List.append_assoc (margin ++ front)]
  have hbefore : (margin ++ front).length = d.span.start.column := by
    rw [List.length_append, hmargin, hc]
  exact ⟨hd.slice_eq, hd.isIn, Diagnostic.marks_of_covers hd hne hshown hbefore⟩

theorem pointsAt_line {i : Nat} {row : List Char} (hr : (rows source.toList)[i]? = some row)
    (h : line.IsOfRow source.toList i row) (hne : line.text.toList ≠ []) {d : Diagnostic}
    (hd : d.span = line.span) : d.PointsAt source line.text.toList := by
  have hlast : ∀ c ∈ line.text.toList.getLast?, isBlank c = false := by
    rw [h.text_eq]
    exact isBlank_of_getLast?_trim
  have htext : line.text.toList = [] ++ (line.text.toList ++ []) := (List.append_nil _).symm
  exact pointsAt_of_isOfRow hr h htext hne hlast (hd ▸ h.covers) (by rw [hd]; rfl) (by rw [hd]; rfl)

theorem pointsAt_field {i : Nat} {row : List Char} (hr : (rows source.toList)[i]? = some row)
    (h : line.IsOfRow source.toList i row) (hn : '\n' ∉ line.text.toList) {field : Field}
    {number : Nat} {front : List Char} (hw : IsWordAt line.text.toList number front field.text)
    (hc : field.column = front.length) {d : Diagnostic} (hd : d.span = line.fieldSpan field) :
    d.span.start = line.span.start.after front ∧ d.PointsAt source field.text := by
  obtain ⟨behind, -, htext⟩ := hw.text_eq
  have hspan := hd.trans (fieldSpan_eq hn htext hc)
  have hcovers := covers_after (htext ▸ h.covers)
  have hlast : ∀ c ∈ field.text.getLast?, isBlank c = false :=
    fun c hm => hw.noBlank c (List.mem_of_getLast? hm)
  exact ⟨congrArg Span.start hspan, pointsAt_of_isOfRow hr h htext hw.ne_nil hlast
    (hspan ▸ hcovers) (by rw [hd]; rfl) (by rw [hd, ← hc]; rfl)⟩

end

-- What a fault in a line is about, and what is in front of it in the line: the whole line when it
-- has too few words, the second word when it is no equals sign, the fourth word when it begins no
-- comment, or the third word when it is no integer.
inductive EntryFault.IsAbout (line : Line) : EntryFault → List Char → List Char → Prop where
  | fieldCount {count : Nat} {span : Span} (h : (words line.text.toList).length = count)
      (hc : count < 3) : IsAbout line (.fieldCount count span) [] line.text.toList
  | notEquals {name found : String} {span : Span} {front word : List Char}
      (h : IsWordAt line.text.toList 1 front word) (hw : word ≠ ['='])
      (hf : found = String.ofList word) : IsAbout line (.notEquals name found span) front word
  | extra {found : String} {span : Span} {front word : List Char}
      (h : IsWordAt line.text.toList 3 front word) (hw : beginsComment word = false)
      (hf : found = String.ofList word) : IsAbout line (.extra found span) front word
  | notInteger {code : String} {span : Span} {front word : List Char}
      (h : IsWordAt line.text.toList 2 front word)
      (hw : Number.readLiteral (withoutDelimiter word) = none)
      (hc : code = String.ofList word) : IsAbout line (.notInteger code span) front word

theorem eq_of_followingFault {line : Line} {rest : List Field} {fault : EntryFault}
    (h : followingFault line rest = some fault) :
    ∃ field more, rest = field :: more ∧ beginsComment field.text = false ∧
      fault = .extra (String.ofList field.text) (line.fieldSpan field) := by
  cases rest with
  | nil => simp [followingFault] at h
  | cons field more =>
      simp only [followingFault] at h
      split at h
      · simp at h
      · rename_i hcomment
        exact ⟨field, more, rfl, Bool.eq_false_iff.mpr hcomment, (Option.some.inj h).symm⟩

-- A fault has the span of the whole line or of one field, and is about the text of that.
inductive EntryFault.IsPlaced (line : Line) (fault : EntryFault) : Prop where
  | line (h : fault.IsAbout line [] line.text.toList) (hs : fault.diagnostic.span = line.span)
  | field (field : Field) (number : Nat) (front : List Char)
      (hw : IsWordAt line.text.toList number front field.text) (hc : field.column = front.length)
      (h : fault.IsAbout line front field.text)
      (hs : fault.diagnostic.span = line.fieldSpan field)

theorem isPlaced_of_readFields {line : Line} {fields : List Field}
    (hf : fieldsFrom 0 line.text.toList = fields) {fault : EntryFault}
    (h : readFields line fields = .error fault) : fault.IsPlaced line := by
  have hword {number : Nat} {field : Field} (hm : fields[number]? = some field) :
      ∃ front, IsWordAt line.text.toList number front field.text ∧
        field.column = front.length := by
    obtain ⟨front, hw, hc⟩ := isWordAt_of_fieldsFrom (hf ▸ hm)
    exact ⟨front, hw, hc.trans (Nat.zero_add _)⟩
  have hcount : (words line.text.toList).length = fields.length := by
    rw [← map_text_fieldsFrom 0, hf, List.length_map]
  unfold readFields at h
  split at h
  · rename_i name equals code rest
    split at h
    · rename_i hequals
      obtain rfl := Except.error.inj h
      obtain ⟨front, hw, hc⟩ := @hword 1 equals rfl
      exact .field equals 1 front hw hc (.notEquals hw hequals rfl) rfl
    split at h
    · rename_i found hfound
      obtain rfl := Except.error.inj h
      obtain ⟨field, more, rfl, hcomment, rfl⟩ := eq_of_followingFault hfound
      obtain ⟨front, hw, hc⟩ := @hword 3 field rfl
      exact .field field 3 front hw hc (.extra hw hcomment rfl) rfl
    · simp only [entryOf] at h
      split at h
      · simp at h
      · rename_i hnumber
        obtain rfl := Except.error.inj h
        obtain ⟨front, hw, hc⟩ := @hword 2 code rfl
        exact .field code 2 front hw hc (.notInteger hw hnumber rfl) rfl
  · rename_i hfew
    obtain rfl := Except.error.inj h
    refine .line (.fieldCount hcount ?_) rfl
    rcases fields with _ | ⟨name, _ | ⟨equals, _ | ⟨code, rest⟩⟩⟩
    · simp
    · simp
    · simp
    · exact absurd rfl (hfew name equals code rest)

theorem isPlaced_of_readEntry {line : Line} {fault : EntryFault}
    (h : readEntry line = .error fault) : line.text.toList ≠ [] ∧ fault.IsPlaced line := by
  simp only [readEntry] at h
  split at h
  · simp at h
  · rename_i hfilled
    have hne : line.text.toList ≠ [] := fun hnil => hfilled (by simp [hnil])
    refine ⟨hne, isPlaced_of_readFields rfl ?_⟩
    cases hr : readFields line (fieldsFrom 0 line.text.toList) with
    | error found =>
        rw [hr] at h
        rw [Except.error.inj h]
    | ok entry => simp [hr, Except.map] at h

theorem exists_of_readLines_eq_error {lines : List Line} {fault : EntryFault}
    (h : readLines lines = .error fault) : ∃ line ∈ lines, readEntry line = .error fault := by
  induction lines with
  | nil => simp [readLines] at h
  | cons line rest ih =>
      cases hl : readEntry line with
      | error found =>
          simp only [readLines, hl, bind, Except.bind, Except.error.injEq] at h
          exact ⟨line, List.mem_cons_self, by rw [hl, h]⟩
      | ok read =>
          have hrest : readLines rest = .error fault := by
            cases hr : readLines rest with
            | error found =>
                cases read <;> simpa [readLines, hl, hr, bind, Except.bind] using h
            | ok behind =>
                cases read <;> simp [readLines, hl, hr, bind, Except.bind, pure, Except.pure] at h
          obtain ⟨found, hm, hf⟩ := ih hrest
          exact ⟨found, List.mem_cons_of_mem _ hm, hf⟩

theorem isFirstRepeat_of_ofEntries {column : Column} {duplicates : Duplicates}
    {entries : List Entry} {fault : TableFault}
    (h : Table.ofEntries column duplicates entries = .error fault) :
    ∃ entry first, IsFirstRepeat (Entry.key column) entries entry first ∧
      fault = ⟨entry.key column, entry.span, first.span⟩ := by
  rw [Table.ofEntries_eq_ofRepeats] at h
  cases duplicates with
  | lastWins => simp [Table.ofRepeats] at h
  | reject =>
      simp only [Table.ofRepeats] at h
      split at h
      · simp at h
      · rename_i entry first more hrepeats
        exact ⟨entry, first, isFirstRepeat_of_repeats hrepeats, (Except.error.inj h).symm⟩

section

variable {markers : Markers} {source : String}

theorem exists_isOfRow {found : List Block} (h : blocks markers source = .ok found)
    {block : Block} (hb : block ∈ found) {line : Line} (hl : line ∈ block.lines) :
    ∃ i row, (rows source.toList)[i]? = some row ∧ line.IsOfRow source.toList i row := by
  rw [eq_of_blocks h] at hb
  have hline : line ∈ sourceLines source := (lines_sublist_scanLines hb).mem hl
  obtain ⟨i, hi⟩ := List.getElem?_of_mem hline
  exact ⟨i, isOfRow_sourceLines hi⟩

end

-- Every captured line is where it stands in the source, and every fault of the block that is read
-- points at what it is about.
theorem faults_point (markers : Markers) (source : String) :
    (∀ found, blocks markers source = .ok found → ∀ block ∈ found, ∀ line ∈ block.lines,
      slice line.span.start.byte line.span.stop.byte source.toList = line.text.toList ∧
      line.span.IsIn source.toList ∧
      ∃ row, (rows source.toList)[line.number]? = some row ∧ line.text.toList = trim row) ∧
    ∀ block, firstBlock markers source = .ok block →
      (∀ fault, readEntries block = .error fault → ∃ line ∈ block.lines, ∃ front item,
        fault.IsAbout line front item ∧
        fault.diagnostic.span.start = line.span.start.after front ∧
        fault.diagnostic.PointsAt source item) ∧
      ∀ entries, readEntries block = .ok entries → ∀ column duplicates fault,
        Table.ofEntries column duplicates entries = .error fault →
        ∃ line ∈ block.lines, ∃ entry first, readEntry line = .ok (some entry) ∧
          IsFirstRepeat (Entry.key column) entries entry first ∧
          fault.diagnostic.span = line.span ∧
          fault.diagnostic.PointsAt source line.text.toList := by
  refine ⟨fun found h block hb line hl => ?_, fun block h => ?_⟩
  · obtain ⟨i, row, hr, hrow⟩ := exists_isOfRow h hb hl
    refine ⟨hrow.covers.slice_eq, hrow.covers.isIn, row, ?_, hrow.text_eq⟩
    rw [hrow.number_eq, hr]
  · obtain ⟨found, hfound, hb⟩ := mem_blocks_of_firstBlock h
    refine ⟨fun fault hf => ?_, fun entries he column duplicates fault hf => ?_⟩
    · obtain ⟨line, hl, hread⟩ := exists_of_readLines_eq_error hf
      obtain ⟨i, row, hr, hrow⟩ := exists_isOfRow hfound hb hl
      obtain ⟨hne, hplaced⟩ := isPlaced_of_readEntry hread
      cases hplaced with
      | line habout hspan =>
          exact ⟨line, hl, [], _, habout, congrArg Span.start hspan,
            pointsAt_line hr hrow hne hspan⟩
      | field field number front hw hc habout hspan =>
          have hn := noLineFeed_of_mem_blocks hfound hb line hl
          exact ⟨line, hl, front, _, habout, pointsAt_field hr hrow hn hw hc hspan⟩
    · obtain ⟨entry, first, hrepeat, rfl⟩ := isFirstRepeat_of_ofEntries hf
      have hentry : entry ∈ entries := by
        obtain ⟨front, behind, rfl, -⟩ := hrepeat
        simp
      obtain ⟨line, hl, hread⟩ := mem_readLines he hentry
      obtain ⟨i, row, hr, hrow⟩ := exists_isOfRow hfound hb hl
      have hne : line.text.toList ≠ [] := by
        intro hnil
        simp [readEntry, hnil] at hread
      have hspan := span_of_readEntry hread
      exact ⟨line, hl, entry, first, hread, hrepeat, hspan, pointsAt_line hr hrow hne hspan⟩

def wideBlanks : String := "/* ü */\r\nenum E \x7b\r\n\tÄ\u3000=\u00a0  1x,\r\n\x7d"

def wideLine : Line := ⟨"Ä\u3000=\u00a0  1x,", ⟨⟨21, 2, 1⟩, ⟨34, 2, 10⟩⟩⟩

def repeatedName : String := "enum E \x7b\r\n A = 1,\r\n\tA = 2\r\n\x7d"

def repeatedLines : List Line :=
  [⟨"A = 1,", ⟨⟨11, 1, 1⟩, ⟨17, 1, 7⟩⟩⟩, ⟨"A = 2", ⟨⟨20, 2, 1⟩, ⟨25, 2, 6⟩⟩⟩]

def repeatedEntries : List Entry :=
  [⟨"A", "1", 1, ⟨⟨11, 1, 1⟩, ⟨17, 1, 7⟩⟩⟩, ⟨"A", "2", 2, ⟨⟨20, 2, 1⟩, ⟨25, 2, 6⟩⟩⟩]

theorem faults_point_wideBlanks :
    (∃ block fault, firstBlock (.ofEnum "enum E \x7b") wideBlanks = .ok block ∧
      readEntries block = .error fault ∧ fault.diagnostic.PointsAt wideBlanks "1x,".toList) ∧
    ∃ block entries fault, firstBlock (.ofEnum "enum E \x7b") repeatedName = .ok block ∧
      readEntries block = .ok entries ∧ Table.ofEntries .name .reject entries = .error fault ∧
      fault.diagnostic.PointsAt repeatedName "A = 2".toList := by
  constructor
  · have hblock : firstBlock (.ofEnum "enum E \x7b") wideBlanks
        = .ok ⟨⟨⟨10, 1, 0⟩, ⟨18, 1, 8⟩⟩, ⟨⟨36, 3, 0⟩, ⟨37, 3, 1⟩⟩, [wideLine]⟩ := by decide
    have hread : readLines [wideLine]
        = .error (.notInteger "1x," ⟨⟨31, 2, 7⟩, ⟨34, 2, 10⟩⟩) := by decide
    have hslice : slice 31 34 wideBlanks.toList = "1x,".toList := by decide
    obtain ⟨line, -, front, item, -, -, hpoints⟩ := ((faults_point _ _).2 _ hblock).1 _ hread
    obtain rfl := hslice.symm.trans hpoints.slice_eq
    exact ⟨_, _, hblock, hread, hpoints⟩
  · have hblock : firstBlock (.ofEnum "enum E \x7b") repeatedName
        = .ok ⟨⟨⟨0, 0, 0⟩, ⟨8, 0, 8⟩⟩, ⟨⟨27, 3, 0⟩, ⟨28, 3, 1⟩⟩, repeatedLines⟩ := by decide
    have hread : readLines repeatedLines = .ok repeatedEntries := by decide
    have htable : Table.ofEntries .name .reject repeatedEntries
        = .error ⟨"A", ⟨⟨20, 2, 1⟩, ⟨25, 2, 6⟩⟩, ⟨⟨11, 1, 1⟩, ⟨17, 1, 7⟩⟩⟩ := by decide
    have hslice : slice 20 25 repeatedName.toList = "A = 2".toList := by decide
    obtain ⟨line, -, entry, first, -, -, -, hpoints⟩ :=
      ((faults_point _ _).2 _ hblock).2 _ hread _ _ _ htable
    have htext : line.text.toList = "A = 2".toList := hpoints.slice_eq.symm.trans hslice
    rw [htext] at hpoints
    exact ⟨_, _, _, hblock, hread, htable, hpoints⟩

end Codebook.Declarations
