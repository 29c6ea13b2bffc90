import Codebook.Proofs.Declarations.Block
import Codebook.Proofs.Text.Position

namespace Codebook.Declarations

open Codebook.Text

-- Where the lines of a source stand in it. The bytes in front of a row are counted from row to
-- row, and the blanks in front of a line stand in its own row.

-- A row of a source is a line with blanks around it, and the line covers what is left of the row.
structure Line.IsOfRow (source : List Char) (number : Nat) (line : Line) (row : List Char) :
    Prop where
  covers : line.span.Covers source line.text.toList
  text_eq : line.text.toList = trim row
  number_eq : line.number = number
  row_eq : ∃ margin trail, margin.length = line.span.start.column ∧ (∀ c ∈ trail, isBlank c) ∧
    row = margin ++ (line.text.toList ++ trail)

theorem notMem_withoutLineEnds {body row : List Char} (hb : '\n' ∉ body)
    (hr : row = body ∨ row = body ++ ['\n']) : '\n' ∉ withoutLineEnds row := by
  have hfront (text : List Char) : withoutLineEnds text <+: text := by
    obtain ⟨ends, -, htext⟩ := exists_lineEnds text
    exact ⟨ends, htext.symm⟩
  rcases hr with rfl | rfl
  · exact fun h => hb ((hfront row).mem h)
  · have hfeed : withoutLineEnds (body ++ ['\n']) = withoutLineEnds body := by
      simp [withoutLineEnds, isLineEnd]
    rw [hfeed]
    exact fun h => hb ((hfront body).mem h)

theorem isOfRow_ofRow {front body row rest : List Char} {number byte : Nat}
    (hp : Position.start.after front = ⟨byte, number, 0⟩) (hb : '\n' ∉ body)
    (hr : row = body ∨ row = body ++ ['\n']) :
    (Line.ofRow number byte row).IsOfRow (front ++ (row ++ rest)) number row := by
  obtain ⟨ends, hends, hrow⟩ := exists_lineEnds row
  obtain ⟨trail, htrail, hline⟩ := exists_trim (withoutLineEnds row)
  have hnone : '\n' ∉ withoutLineEnds row := notMem_withoutLineEnds hb hr
  have hmargin : '\n' ∉ (withoutLineEnds row).takeWhile isBlank :=
    fun h => hnone ((List.takeWhile_prefix _).mem h)
  have htext : '\n' ∉ trim (withoutLineEnds row) := fun h => hnone (mem_of_mem_trim h)
  have hparts : row = (withoutLineEnds row).takeWhile isBlank
      ++ (trim (withoutLineEnds row) ++ (trail ++ ends)) := by
    rw [← List.append_assoc (trim (withoutLineEnds row)), ← List.append_assoc, ← hline, ← hrow]
  have hsource : front ++ (row ++ rest) = front ++ (withoutLineEnds row).takeWhile isBlank
      ++ (trim (withoutLineEnds row) ++ ((trail ++ ends) ++ rest)) := by
    conv_lhs => rw [hparts]
    simp
  have hblanks : ∀ c ∈ trail ++ ends, isBlank c :=
    List.forall_mem_append.mpr ⟨htrail, fun c hc => isBlank_of_isLineEnd (hends c hc)⟩
  refine ⟨⟨front ++ (withoutLineEnds row).takeWhile isBlank, (trail ++ ends) ++ rest, ?_, ?_⟩, ?_,
    rfl, (withoutLineEnds row).takeWhile isBlank, trail ++ ends, rfl, hblanks, ?_⟩
  · simpa [Line.ofRow] using hsource
  · rw [Position.after_append, hp, after_of_notMem hmargin, Nat.zero_add, Line.ofRow,
      String.toList_ofList, Span.covering, after_of_notMem htext]
  · rw [← trim_withoutLineEnds, Line.ofRow, String.toList_ofList]
  · simpa [Line.ofRow] using hparts

theorem isOfRow_linesFrom {front text : List Char} {number byte : Nat}
    (hp : Position.start.after front = ⟨byte, number, 0⟩) {i : Nat} {line : Line}
    (h : (linesFrom number byte (rows text))[i]? = some line) :
    ∃ row, (rows text)[i]? = some row ∧ line.IsOfRow (front ++ text) (number + i) row := by
  induction text using rows_induction generalizing front number byte i with
  | nil => simp [rows, linesFrom] at h
  | last body hne hbody =>
      rw [rows_of_notMem hne hbody] at h ⊢
      cases i with
      | zero =>
          obtain rfl := Option.some.inj h
          refine ⟨body, rfl, ?_⟩
          have hrow := @isOfRow_ofRow front body body [] number byte hp hbody (.inl rfl)
          rwa [List.append_nil] at hrow
      | succ i => simp [linesFrom] at h
  | feed body rest hbody ih =>
      rw [rows_append_lineFeed hbody] at h ⊢
      have hsource : front ++ (body ++ '\n' :: rest) = front ++ ((body ++ ['\n']) ++ rest) := by
        simp
      rw [hsource]
      cases i with
      | zero =>
          obtain rfl := Option.some.inj h
          exact ⟨_, rfl, isOfRow_ofRow hp hbody (.inr rfl)⟩
      | succ i =>
          -- the next row begins behind the line feed
          have hnext : Position.start.after (front ++ (body ++ ['\n']))
              = ⟨byte + byteLength (body ++ ['\n']), number + 1, 0⟩ := by
            rw [Position.after_append, hp, Position.after_append, after_of_notMem hbody,
              byteLength_append, ← Nat.add_assoc]
            rfl
          obtain ⟨row, hrow, hof⟩ := ih hnext h
          refine ⟨row, hrow, ?_⟩
          rwa [List.append_assoc, Nat.add_assoc, Nat.add_comm 1] at hof

-- Each line of a source is of the row with its number.
theorem isOfRow_sourceLines {source : String} {i : Nat} {line : Line}
    (h : (sourceLines source)[i]? = some line) :
    ∃ row, (rows source.toList)[i]? = some row ∧ line.IsOfRow source.toList i row := by
  have hrow := @isOfRow_linesFrom [] source.toList 0 0 rfl i line h
  rwa [Nat.zero_add] at hrow

theorem map_text_sourceLines (source : String) :
    (sourceLines source).map (fun line => line.text.toList) = (parts source.toList).map trim := by
  have htexts := congrArg (List.map String.toList)
    (map_text_linesFrom 0 0 (rows source.toList))
  rw [List.map_map, List.map_map] at htexts
  rw [← map_trim_rows, sourceLines]
  simpa [Function.comp_def] using htexts

end Codebook.Declarations
