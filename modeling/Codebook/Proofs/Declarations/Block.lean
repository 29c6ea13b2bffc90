import Codebook.Declarations.Block
import Codebook.Proofs.Text.Blank
import Codebook.Proofs.Text.Lines
import Mathlib.Data.List.Basic

namespace Codebook.Declarations

open Codebook.Text

-- The lines of a block come from the source in their order, and no two of them have one number.

def Line.number (line : Line) : Nat := line.span.start.line

theorem le_number_of_mem {number byte : Nat} {rows : List (List Char)} {line : Line}
    (h : line ∈ linesFrom number byte rows) : number ≤ line.number := by
  induction rows generalizing number byte with
  | nil => simp [linesFrom] at h
  | cons row rest ih =>
      rcases List.mem_cons.mp h with rfl | h
      · exact Nat.le_refl number
      · exact Nat.le_of_succ_le (ih h)

theorem number_pairwise_linesFrom (number byte : Nat) (rows : List (List Char)) :
    (linesFrom number byte rows).Pairwise fun line next => line.number < next.number := by
  induction rows generalizing number byte with
  | nil => exact List.Pairwise.nil
  | cons row rest ih =>
      refine List.pairwise_cons.mpr ⟨fun line hm => ?_, ih _ _⟩
      exact Nat.lt_of_succ_le (le_number_of_mem hm)

-- The lines of a block that is open at the start are those that it has captured and some of the
-- rest.
theorem lines_sublist_scanLines {markers : Markers} {inside : Option (Span × List Line)}
    {lines : List Line} {block : Block} (h : block ∈ (scanLines markers inside lines).blocks) :
    block.lines.Sublist ((inside.map Prod.snd).getD [] ++ lines) := by
  induction lines generalizing inside with
  | nil => cases inside <;> simp [scanLines] at h
  | cons line rest ih =>
      cases inside with
      | none =>
          simp only [scanLines] at h
          split at h
          · exact (ih h).cons line
          · exact (ih h).cons line
      | some begun =>
          obtain ⟨opening, captured⟩ := begun
          simp only [scanLines] at h
          split at h
          · simp at h
          split at h
          · rcases List.mem_cons.mp h with rfl | h
            · exact List.sublist_append_left _ _
            · exact ((ih h).cons line).trans (List.sublist_append_right _ _)
          · have hrest := ih h
            rw [Option.map_some, Option.getD_some, List.append_assoc] at hrest
            exact hrest

theorem exists_lineEnds (row : List Char) :
    ∃ ends, (∀ c ∈ ends, isLineEnd c) ∧ row = withoutLineEnds row ++ ends := by
  refine ⟨(row.reverse.takeWhile isLineEnd).reverse, ?_, ?_⟩
  · intro c hc
    exact List.mem_takeWhile_imp (List.mem_reverse.mp hc)
  · rw [withoutLineEnds, ← List.reverse_append, List.takeWhile_append_dropWhile,
      List.reverse_reverse]

theorem isBlank_of_isLineEnd {c : Char} (h : isLineEnd c) : isBlank c := by
  rw [isLineEnd, Bool.or_eq_true, beq_iff_eq, beq_iff_eq] at h
  rcases h with rfl | rfl <;> decide

theorem trim_withoutLineEnds (row : List Char) : trim (withoutLineEnds row) = trim row := by
  obtain ⟨ends, hends, hrow⟩ := exists_lineEnds row
  have htrim := trim_append_blanks (fun c hc => isBlank_of_isLineEnd (hends c hc))
    (withoutLineEnds row)
  rw [← hrow] at htrim
  exact htrim.symm

-- A line says what its row says without the blanks around it.
theorem map_text_linesFrom (number byte : Nat) (rows : List (List Char)) :
    (linesFrom number byte rows).map Line.text = rows.map fun row => String.ofList (trim row) := by
  induction rows generalizing number byte with
  | nil => rfl
  | cons row rest ih =>
      rw [linesFrom, List.map_cons, ih, List.map_cons, ← trim_withoutLineEnds]
      rfl

theorem noLineFeed_of_mem_sourceLines {source : String} {line : Line}
    (h : line ∈ sourceLines source) : '\n' ∉ line.text.toList := by
  have htext : line.text ∈ (sourceLines source).map Line.text := List.mem_map_of_mem h
  rw [sourceLines, map_text_linesFrom] at htext
  obtain ⟨row, hrow, hline⟩ := List.mem_map.mp htext
  obtain ⟨body, hbody, rfl | rfl⟩ := exists_of_mem_rows hrow
  · rw [← hline, String.toList_ofList]
    exact mt mem_of_mem_trim hbody
  · rw [← hline, String.toList_ofList, trim_append_blank (by decide)]
    exact mt mem_of_mem_trim hbody

theorem eq_of_blocks {markers : Markers} {source : String} {found : List Block}
    (h : blocks markers source = .ok found) : found = (scanSource markers source).blocks := by
  unfold blocks at h
  cases hending : (scanSource markers source).ending with
  | complete =>
      simp only [hending] at h
      exact (Except.ok.inj h).symm
  | nested line opening => simp [hending] at h
  | unclosed opening => simp [hending] at h

theorem noLineFeed_of_mem_blocks {markers : Markers} {source : String} {found : List Block}
    (h : blocks markers source = .ok found) {block : Block} (hm : block ∈ found) :
    ∀ line ∈ block.lines, '\n' ∉ line.text.toList := by
  intro line hline
  rw [eq_of_blocks h] at hm
  exact noLineFeed_of_mem_sourceLines ((lines_sublist_scanLines hm).mem hline)

theorem mem_blocks_of_firstBlock {markers : Markers} {source : String} {block : Block}
    (h : firstBlock markers source = .ok block) :
    ∃ found, blocks markers source = .ok found ∧ block ∈ found := by
  unfold firstBlock at h
  cases hblocks : blocks markers source with
  | error fault => simp [hblocks, bind, Except.bind] at h
  | ok found =>
      cases found with
      | nil => simp [hblocks, bind, Except.bind] at h
      | cons first rest =>
          simp only [hblocks, bind, Except.bind, Except.ok.injEq] at h
          exact ⟨_, rfl, h ▸ List.mem_cons_self⟩

theorem numbers_nodup_firstBlock {markers : Markers} {source : String} {block : Block}
    (h : firstBlock markers source = .ok block) : (block.lines.map Line.number).Nodup := by
  obtain ⟨found, hfound, hm⟩ := mem_blocks_of_firstBlock h
  rw [eq_of_blocks hfound] at hm
  have hincreasing := (number_pairwise_linesFrom 0 0 _).sublist (lines_sublist_scanLines hm)
  exact List.pairwise_map.mpr (hincreasing.imp Nat.ne_of_lt)

-- The scan of lines around one block

section

variable {markers : Markers}

theorem scanLines_outside {front : List Line} (h : ∀ line ∈ front, markers.opens line = false)
    (rest : List Line) : scanLines markers none (front ++ rest) = scanLines markers none rest := by
  induction front with
  | nil => rfl
  | cons line front ih =>
      obtain ⟨hline, hfront⟩ := List.forall_mem_cons.mp h
      rw [List.cons_append, scanLines]
      simp only [hline, Bool.false_eq_true, if_false]
      exact ih hfront

theorem scanLines_inside {body : List Line}
    (h : ∀ line ∈ body, markers.opens line = false ∧ markers.closes line = false) (opening : Span)
    (captured rest : List Line) :
    scanLines markers (some (opening, captured)) (body ++ rest)
      = scanLines markers (some (opening, captured ++ body)) rest := by
  induction body generalizing captured with
  | nil => rw [List.nil_append, List.append_nil]
  | cons line body ih =>
      obtain ⟨⟨hopens, hcloses⟩, hbody⟩ := List.forall_mem_cons.mp h
      rw [List.cons_append, scanLines]
      simp only [hopens, hcloses, Bool.false_eq_true, if_false]
      rw [ih hbody, List.append_assoc, List.singleton_append]

-- No block is closed when no line that may close one is behind a line that opens one.
theorem blocks_scanLines_eq_nil {behind : List Line}
    (h : ∀ line ∈ behind, markers.closes line = false) (inside : Option (Span × List Line)) :
    (scanLines markers inside behind).blocks = [] := by
  induction behind generalizing inside with
  | nil => cases inside <;> rfl
  | cons line rest ih =>
      obtain ⟨hline, hrest⟩ := List.forall_mem_cons.mp h
      cases inside with
      | none =>
          rw [scanLines]
          split
          · exact ih hrest _
          · exact ih hrest _
      | some begun =>
          obtain ⟨opening, captured⟩ := begun
          simp only [scanLines, hline, Bool.false_eq_true, if_false]
          split
          · rfl
          · exact ih hrest _

theorem firstBlock_ne_ok {front behind : List Line} {source : String}
    (hs : sourceLines source = front ++ behind) (hf : ∀ line ∈ front, markers.opens line = false)
    (hb : ∀ line ∈ behind, markers.closes line = false) (block : Block) :
    firstBlock markers source ≠ .ok block := by
  intro h
  obtain ⟨found, hfound, hm⟩ := mem_blocks_of_firstBlock h
  rw [eq_of_blocks hfound, scanSource, hs, scanLines_outside hf,
    blocks_scanLines_eq_nil hb none] at hm
  exact absurd hm List.not_mem_nil

-- The lines between the opening and the closing line are captured.
theorem scanLines_block {front body behind : List Line} {opening closing : Line}
    (hf : ∀ line ∈ front, markers.opens line = false) (ho : markers.opens opening)
    (hb : ∀ line ∈ body, markers.opens line = false ∧ markers.closes line = false)
    (hn : markers.opens closing = false) (hc : markers.closes closing)
    (ha : ∀ line ∈ behind, markers.opens line = false) :
    scanLines markers none (front ++ opening :: (body ++ closing :: behind))
      = ⟨[⟨opening.span, closing.span, body⟩], .complete⟩ := by
  have hbehind := scanLines_outside ha []
  rw [List.append_nil] at hbehind
  rw [scanLines_outside hf, scanLines]
  simp only [ho, if_true]
  rw [scanLines_inside hb, List.nil_append, scanLines]
  simp only [hn, hc, Bool.false_eq_true, if_false, if_true, hbehind]
  rfl

end

end Codebook.Declarations
