import Codebook.Proofs.Declarations.Lines
import Codebook.Proofs.Declarations.Pairs
import Mathlib.Data.List.Forall2

namespace Codebook.Declarations

open Codebook.Text

-- A scan finds a block for each pair of lines when the lines can be paired. Otherwise it stops at
-- the first line that opens a block inside of a block, or at the end of the last block.

-- The lines of a source: what stands between its line feeds, without the blanks around it
def lineTexts (source : List Char) : List (List Char) := (parts source).map trim

def textsOf (lines : List Line) : List (List Char) := lines.map fun line => line.text.toList

-- A block as it is cut out of the lines
structure Block.IsCut (lines : List Line) (pair : Nat × Nat) (block : Block) : Prop where
  opening : (lines[pair.1]?).map Line.span = some block.opening
  closing : (lines[pair.2]?).map Line.span = some block.closing
  lines : block.lines = (lines.take pair.2).drop (pair.1 + 1)

-- What a scan of lines comes to behind some pairs
def Scan.IsOf (markers : Markers) (lines : List Line) (pairs : List (Nat × Nat)) (scan : Scan) :
    Prop :=
  match scan.ending with
  | .complete => ∃ more, markers.IsPaired (textsOf lines) (pairs ++ more) ∧
      List.Forall₂ (Block.IsCut lines) more scan.blocks
  | .nested line opening => ∃ i first, markers.NestsAt (textsOf lines) i ∧
      (∀ j < i, ¬ markers.NestsAt (textsOf lines) j) ∧ markers.IsOpenAt (textsOf lines) first i ∧
      (lines[i]?).map Line.span = some line ∧ (lines[first]?).map Line.span = some opening
  | .unclosed opening => (∀ i, ¬ markers.NestsAt (textsOf lines) i) ∧
      ∃ first, markers.OpensAt (textsOf lines) first ∧
        (∀ i, markers.OpensAt (textsOf lines) i → i ≤ first) ∧
        (∀ i, first < i → ¬ markers.ClosesAt (textsOf lines) i) ∧
        (lines[first]?).map Line.span = some opening

-- How far a scan is behind the lines in front: outside of a block, or behind the opening line of
-- one and behind lines that neither open nor close one.
def Awaits (markers : Markers) (front : List Line) (pairs : List (Nat × Nat)) :
    Option (Span × List Line) → Prop
  | none => markers.IsPaired (textsOf front) pairs
  | some (opening, captured) => ∃ before first, front = before ++ first :: captured ∧
      opening = first.span ∧ markers.opens first ∧
      (∀ line ∈ captured, markers.opens line = false ∧ markers.closes line = false) ∧
      markers.IsPaired (textsOf before) pairs

section

variable {markers : Markers}

theorem textsOf_append (front behind : List Line) :
    textsOf (front ++ behind) = textsOf front ++ textsOf behind := List.map_append

theorem length_textsOf (lines : List Line) : (textsOf lines).length = lines.length :=
  List.length_map _

theorem opens_iff (line : Line) :
    markers.opens line ↔ markers.opening.toList <:+: line.text.toList := occursIn_iff

theorem closes_iff_eq (line : Line) :
    markers.closes line ↔ line.text.toList = markers.closing.toList := by
  rw [Markers.closes, beq_iff_eq, String.toList_inj]

theorem not_opens_of_captured {captured : List Line}
    (h : ∀ line ∈ captured, markers.opens line = false ∧ markers.closes line = false) :
    ∀ text ∈ textsOf captured,
      ¬ markers.opening.toList <:+: text ∧ text ≠ markers.closing.toList := by
  refine List.forall_mem_map.mpr fun line hm => ?_
  obtain ⟨hopens, hcloses⟩ := h line hm
  rw [← opens_iff, ne_eq, ← closes_iff_eq, hopens, hcloses]
  exact ⟨Bool.false_ne_true, Bool.false_ne_true⟩

section

variable (before captured rest : List Line) (first : Line)

theorem textsOf_behind : textsOf (before ++ first :: captured ++ rest)
    = textsOf before ++ first.text.toList :: (textsOf captured ++ textsOf rest) := by
  simp [textsOf]

theorem line_first : (before ++ first :: captured ++ rest)[(textsOf before).length]?
    = some first := by
  simp [length_textsOf]

theorem line_next (line : Line) : (before ++ first :: captured ++ line :: rest)[
    (textsOf before).length + 1 + (textsOf captured).length]? = some line := by
  have hlength : (before ++ first :: captured).length
      = (textsOf before).length + 1 + (textsOf captured).length := by
    simp [length_textsOf]
    omega
  rw [← hlength, List.getElem?_append_right (Nat.le_refl _), Nat.sub_self]
  rfl

theorem isCut_between (line : Line) :
    Block.IsCut (before ++ first :: captured ++ line :: rest)
      ((textsOf before).length, (textsOf before).length + 1 + (textsOf captured).length)
      ⟨first.span, line.span, captured⟩ where
  opening := congrArg (Option.map Line.span) (line_first before captured (line :: rest) first)
  closing := congrArg (Option.map Line.span) (line_next before captured rest first line)
  lines := by
    have hfront : (before ++ [first]).length = before.length + 1 := List.length_append
    rw [length_textsOf, length_textsOf, List.append_cons before first captured,
      List.append_assoc, ← hfront, List.take_length_add_append, List.drop_left,
      List.take_left]

end

theorem isOf_closed {lines : List Line} {pairs : List (Nat × Nat)} {pair : Nat × Nat}
    {block : Block} {behind : Scan} (hb : block.IsCut lines pair)
    (h : behind.IsOf markers lines (pairs ++ [pair])) :
    Scan.IsOf markers lines pairs { behind with blocks := block :: behind.blocks } := by
  unfold Scan.IsOf at h ⊢
  cases hending : behind.ending with
  | complete =>
      simp only [hending] at h ⊢
      obtain ⟨more, hpaired, hblocks⟩ := h
      refine ⟨pair :: more, ?_, .cons hb hblocks⟩
      rwa [List.append_assoc] at hpaired
  | nested line opening => simpa only [hending] using h
  | unclosed opening => simpa only [hending] using h

section

variable {before captured : List Line} {first : Line} {pairs : List (Nat × Nat)}
  (hp : markers.IsPaired (textsOf before) pairs) (ho : markers.opens first)
  (hc : ∀ line ∈ captured, markers.opens line = false ∧ markers.closes line = false)

include hp ho hc

theorem isOf_unclosed :
    Scan.IsOf markers (before ++ first :: captured) pairs ⟨[], .unclosed first.span⟩ := by
  have hb := not_opens_of_captured hc
  have hfirst := line_first before captured [] first
  have htexts := textsOf_behind before captured [] first
  rw [List.append_nil] at htexts hfirst
  have hopens : markers.OpensAt (textsOf (before ++ first :: captured))
      (textsOf before).length := by
    rw [htexts]
    exact (Markers.isOpenAt_body ((opens_iff first).mp ho) hb _).opens
  -- behind the captured lines there is no line at all
  have hlength : (textsOf (before ++ first :: captured)).length
      = (textsOf before).length + 1 + (textsOf captured).length := by
    simp [length_textsOf]
    omega
  refine ⟨fun i hn => ?_, (textsOf before).length, hopens, fun i hi => ?_,
    fun i hf hcl => ?_, congrArg (Option.map Line.span) hfirst⟩
  · have hlt := hlength ▸ hn.1.lt
    exact Markers.not_nestsAt_body hb hp [] hlt (htexts ▸ hn)
  · have hlt := hlength ▸ hi.lt
    by_contra hgt
    exact Markers.not_opensAt_body hb [] (Nat.lt_of_not_le hgt) hlt (htexts ▸ hi)
  · have hlt := hlength ▸ hcl.lt
    exact Markers.not_closesAt_body hb [] hf hlt (htexts ▸ hcl)

theorem isOf_nested {line : Line} (hl : markers.opens line) (rest : List Line) :
    Scan.IsOf markers (before ++ first :: captured ++ line :: rest) pairs
      ⟨[], .nested line.span first.span⟩ := by
  have hb := not_opens_of_captured hc
  have htexts := textsOf_behind before captured (line :: rest) first
  have hopen : markers.IsOpenAt (textsOf (before ++ first :: captured ++ line :: rest))
      (textsOf before).length ((textsOf before).length + 1 + (textsOf captured).length) := by
    rw [htexts]
    exact Markers.isOpenAt_body ((opens_iff first).mp ho) hb _
  have hnext := line_next before captured rest first line
  have hopens : markers.OpensAt (textsOf (before ++ first :: captured ++ line :: rest))
      ((textsOf before).length + 1 + (textsOf captured).length) := by
    refine ⟨line.text.toList, ?_, (opens_iff line).mp hl⟩
    rw [textsOf, List.getElem?_map, hnext]
    rfl
  refine ⟨_, _, ⟨hopens, _, hopen⟩, fun i hi => ?_, hopen, congrArg (Option.map Line.span) hnext,
    congrArg (Option.map Line.span) (line_first before captured (line :: rest) first)⟩
  rw [htexts]
  exact Markers.not_nestsAt_body hb hp _ hi

end

-- What a scan does with the lines behind some others
theorem isOf_scanLines {front rest : List Line} {pairs : List (Nat × Nat)}
    {inside : Option (Span × List Line)} (h : Awaits markers front pairs inside) :
    (scanLines markers inside rest).IsOf markers (front ++ rest) pairs := by
  induction rest generalizing front pairs inside with
  | nil =>
      rw [List.append_nil]
      cases inside with
      | none => exact ⟨[], by rwa [List.append_nil], .nil⟩
      | some begun =>
          obtain ⟨opening, captured⟩ := begun
          obtain ⟨before, first, rfl, rfl, hfirst, hcaptured, hpaired⟩ := h
          exact isOf_unclosed hpaired hfirst hcaptured
  | cons line rest ih =>
      have hlines : front ++ line :: rest = (front ++ [line]) ++ rest := List.append_cons _ _ _
      cases inside with
      | none =>
          rw [hlines]
          simp only [scanLines]
          split
          · rename_i hopens
            exact ih ⟨front, line, rfl, rfl, hopens, by simp, h⟩
          · rename_i hopens
            apply ih
            show markers.IsPaired (textsOf (front ++ [line])) pairs
            rw [textsOf_append]
            refine Markers.IsPaired.append h (List.forall_mem_singleton.mpr ?_)
            rwa [← opens_iff]
      | some begun =>
          obtain ⟨opening, captured⟩ := begun
          obtain ⟨before, first, rfl, rfl, hfirst, hcaptured, hpaired⟩ := h
          simp only [scanLines]
          split
          · rename_i hopens
            exact isOf_nested hpaired hfirst hcaptured hopens rest
          split
          · rename_i hopens hcloses
            refine isOf_closed (isCut_between before captured rest first line) ?_
            rw [hlines]
            apply ih
            have hclosing := (closes_iff_eq line).mp hcloses
            have hnone : ¬ markers.opening.toList <:+: markers.closing.toList := by
              rwa [← hclosing, ← opens_iff]
            have hnext := hpaired.concat ((opens_iff first).mp hfirst)
              (not_opens_of_captured hcaptured) hnone
            show markers.IsPaired (textsOf (before ++ first :: captured ++ [line])) _
            rw [textsOf_behind, textsOf, textsOf, textsOf, List.map_singleton, hclosing]
            exact hnext
          · rename_i hopens hcloses
            rw [hlines]
            apply ih
            refine ⟨before, first, by simp, rfl, hfirst, ?_, hpaired⟩
            refine List.forall_mem_append.mpr ⟨hcaptured, List.forall_mem_singleton.mpr ?_⟩
            exact ⟨Bool.eq_false_iff.mpr hopens, Bool.eq_false_iff.mpr hcloses⟩

end

-- Where the lines of blocks and of faults stand in a source

-- A span covers the line with a number.
structure IsLineAt (source : List Char) (i : Nat) (span : Span) : Prop where
  line_eq : span.start.line = i
  covers : ∃ text ∈ (lineTexts source)[i]?, span.Covers source text

structure Block.IsAt (source : List Char) (pair : Nat × Nat) (block : Block) : Prop where
  opening : IsLineAt source pair.1 block.opening
  closing : IsLineAt source pair.2 block.closing
  texts : textsOf block.lines = ((lineTexts source).take pair.2).drop (pair.1 + 1)
  places : ∀ i line, block.lines[i]? = some line → IsLineAt source (pair.1 + 1 + i) line.span

-- The first line that opens a block inside of a block, and the line where that one begins
def IsNestedFault (markers : Markers) (source : List Char) (d : Diagnostic) : Prop :=
  d.kind = .nestedBlock ∧ ∃ i first opening, d.related = some opening ∧
    markers.NestsAt (lineTexts source) i ∧ (∀ j < i, ¬ markers.NestsAt (lineTexts source) j) ∧
    markers.IsOpenAt (lineTexts source) first i ∧
    IsLineAt source i d.span ∧ IsLineAt source first opening

-- No line opens a block inside of a block, and the last line that opens one is the other place.
def IsUnclosedFault (markers : Markers) (source : List Char) (d : Diagnostic) : Prop :=
  d.kind = .unclosedBlock ∧ (∀ i, ¬ markers.NestsAt (lineTexts source) i) ∧
    ∃ first opening, d.related = some opening ∧ markers.OpensAt (lineTexts source) first ∧
      (∀ i, markers.OpensAt (lineTexts source) i → i ≤ first) ∧
      (∀ i, first < i → ¬ markers.ClosesAt (lineTexts source) i) ∧
      IsLineAt source first opening

section

variable {markers : Markers} {source : String}

theorem textsOf_sourceLines (source : String) :
    textsOf (sourceLines source) = lineTexts source.toList := map_text_sourceLines source

theorem isLineAt_sourceLines {i : Nat} {span : Span}
    (h : ((sourceLines source)[i]?).map Line.span = some span) :
    IsLineAt source.toList i span := by
  obtain ⟨line, hline, rfl⟩ := Option.map_eq_some_iff.mp h
  obtain ⟨row, -, hrow⟩ := isOfRow_sourceLines hline
  refine ⟨hrow.number_eq, line.text.toList, ?_, hrow.covers⟩
  rw [← textsOf_sourceLines, textsOf, List.getElem?_map, hline]
  rfl

theorem Block.IsCut.isAt {pair : Nat × Nat} {block : Block}
    (h : block.IsCut (sourceLines source) pair) : block.IsAt source.toList pair where
  opening := isLineAt_sourceLines h.opening
  closing := isLineAt_sourceLines h.closing
  texts := by
    rw [← textsOf_sourceLines, h.lines, textsOf, List.map_drop, List.map_take]
    rfl
  places i line hline := by
    apply isLineAt_sourceLines
    rw [h.lines, List.getElem?_drop, List.getElem?_take] at hline
    split at hline
    · rw [hline]
      rfl
    · simp at hline

theorem isOf_scanSource (markers : Markers) (source : String) :
    (scanSource markers source).IsOf markers (sourceLines source) [] :=
  @isOf_scanLines markers [] (sourceLines source) [] none (Markers.IsPaired.nil markers)

theorem isAt_of_blocks {found : List Block} (h : blocks markers source = .ok found) :
    ∃ pairs, markers.IsPaired (lineTexts source.toList) pairs ∧
      List.Forall₂ (Block.IsAt source.toList) pairs found := by
  have hscan := isOf_scanSource markers source
  rw [eq_of_blocks h]
  unfold Scan.IsOf at hscan
  unfold blocks at h
  cases hending : (scanSource markers source).ending with
  | complete =>
      simp only [hending] at hscan
      obtain ⟨pairs, hpaired, hblocks⟩ := hscan
      rw [textsOf_sourceLines] at hpaired
      exact ⟨pairs, hpaired, hblocks.imp fun pair block hcut => hcut.isAt⟩
  | nested line opening => simp [hending] at h
  | unclosed opening => simp [hending] at h

theorem not_paired_of_blocks {fault : BlockFault} (h : blocks markers source = .error fault) :
    (¬ ∃ pairs, markers.IsPaired (lineTexts source.toList) pairs) ∧
      (IsNestedFault markers source.toList fault.diagnostic ∨
        IsUnclosedFault markers source.toList fault.diagnostic ∧
          fault.diagnostic.span = Span.point (endOfSource source)) := by
  have hscan := isOf_scanSource markers source
  unfold Scan.IsOf at hscan
  rw [textsOf_sourceLines] at hscan
  unfold blocks at h
  cases hending : (scanSource markers source).ending with
  | complete => simp [hending] at h
  | nested line opening =>
      simp only [hending] at hscan h
      obtain rfl := Except.error.inj h
      obtain ⟨i, first, hnests, hleast, hopen, hline, hopening⟩ := hscan
      refine ⟨fun ⟨pairs, hpaired⟩ => hpaired.not_nestsAt i hnests, .inl ⟨rfl, ?_⟩⟩
      exact ⟨i, first, opening, rfl, hnests, hleast, hopen, isLineAt_sourceLines hline,
        isLineAt_sourceLines hopening⟩
  | unclosed opening =>
      simp only [hending] at hscan h
      obtain rfl := Except.error.inj h
      obtain ⟨hnone, first, hopens, hlast, hnot, hopening⟩ := hscan
      refine ⟨fun ⟨pairs, hpaired⟩ => ?_, .inr ⟨⟨rfl, hnone, ?_⟩, rfl⟩⟩
      · obtain ⟨pair, hm, rfl⟩ := List.mem_map.mp ((hpaired.openings first).mpr hopens)
        exact hnot pair.2 (hpaired.ordered pair hm) (hpaired.closes pair hm)
      · exact ⟨first, opening, rfl, hopens, hlast, hnot, isLineAt_sourceLines hopening⟩

theorem firstBlock_of_ok {found : List Block} (h : blocks markers source = .ok found) :
    (∀ block ∈ found.head?, firstBlock markers source = .ok block) ∧
      (found = [] → ∃ fault, firstBlock markers source = .error fault ∧
        fault.diagnostic.kind = .missingBlock) := by
  cases found with
  | nil =>
      refine ⟨by simp, fun _ => ⟨.missing markers, ?_, rfl⟩⟩
      simp only [firstBlock, h, bind, Except.bind]
  | cons block rest =>
      refine ⟨fun first hfirst => ?_, by simp⟩
      obtain rfl := Option.some.inj hfirst
      simp only [firstBlock, h, bind, Except.bind]

theorem firstBlock_of_error {fault : BlockFault} (h : blocks markers source = .error fault) :
    firstBlock markers source = .error fault := by
  simp only [firstBlock, h, bind, Except.bind]

end

-- A scan finds a block for each pair when the lines can be paired, and fails otherwise.
theorem blocks_paired (markers : Markers) (source : String) :
    (∀ pairs, markers.IsPaired (lineTexts source.toList) pairs →
      ∃ found, blocks markers source = .ok found ∧
        List.Forall₂ (Block.IsAt source.toList) pairs found ∧
        (∀ block ∈ found.head?, firstBlock markers source = .ok block) ∧
        (found = [] → ∃ fault, firstBlock markers source = .error fault ∧
          fault.diagnostic.kind = .missingBlock)) ∧
    ((¬ ∃ pairs, markers.IsPaired (lineTexts source.toList) pairs) →
      ∃ fault, blocks markers source = .error fault ∧ firstBlock markers source = .error fault ∧
        (IsNestedFault markers source.toList fault.diagnostic ∨
          IsUnclosedFault markers source.toList fault.diagnostic)) := by
  cases h : blocks markers source with
  | ok found =>
      obtain ⟨pairs, hpaired, hfound⟩ := isAt_of_blocks h
      refine ⟨fun others hothers => ⟨found, rfl, ?_, firstBlock_of_ok h⟩,
        fun hnone => absurd ⟨pairs, hpaired⟩ hnone⟩
      rwa [hothers.unique hpaired]
  | error fault =>
      obtain ⟨hnone, hfault⟩ := not_paired_of_blocks h
      refine ⟨fun pairs hpaired => absurd ⟨pairs, hpaired⟩ hnone,
        fun _ => ⟨fault, rfl, firstBlock_of_error h, hfault.imp_right And.left⟩⟩

def commentMarkers : Markers := ⟨"/**", "*/"⟩

def twoComments : String := " */\n/** one\r\n a\n\n*/\r\n\t/** two\n*/"

def commentInComment : String := "/** one\n\n /** two\n*/\n"

theorem blocks_paired_comments :
    (∃ found, blocks commentMarkers twoComments = .ok found ∧
      List.Forall₂ (Block.IsAt twoComments.toList) [(1, 4), (5, 6)] found ∧
      (∀ block ∈ found.head?, firstBlock commentMarkers twoComments = .ok block) ∧
      (found = [] → ∃ fault, firstBlock commentMarkers twoComments = .error fault ∧
        fault.diagnostic.kind = .missingBlock)) ∧
    ∃ fault, blocks commentMarkers commentInComment = .error fault ∧
      firstBlock commentMarkers commentInComment = .error fault ∧
      (IsNestedFault commentMarkers commentInComment.toList fault.diagnostic ∨
        IsUnclosedFault commentMarkers commentInComment.toList fault.diagnostic) := by
  have hopen : commentMarkers.IsOpenAt (lineTexts commentInComment.toList) 0 2 := by
    refine ⟨by decide, by decide, fun i hfirst hi => ?_⟩
    obtain rfl : i = 1 := by omega
    decide
  refine ⟨(blocks_paired _ _).1 [(1, 4), (5, 6)] (by decide), (blocks_paired _ _).2 ?_⟩
  intro ⟨pairs, hpaired⟩
  exact hpaired.not_nestsAt 2 ⟨by decide, 0, hopen⟩

end Codebook.Declarations
