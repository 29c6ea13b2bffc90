import Codebook.Proofs.Text.Split
import Codebook.Script.Page

namespace Codebook.Script

open Codebook.Text

-- The characters of a row on its line. An empty row has no indentation.
def Row.written (row : Row) : List Char :=
  (if row.text.isEmpty then [] else List.replicate (4 * row.level) ' ') ++ row.text.toList

def writtenRows (rows : List Row) : List Char := rows.flatMap fun row => row.written ++ ['\n']

namespace Page

theorem pending_addRow (page : Page) (row : Row) : (page.addRow row).pending = "" := by
  unfold addRow
  split <;> rfl

theorem lines_line (page : Page) (text : String) (h : page.pending = "") :
    (page.line text).lines
      = page.lines.push (String.ofList (Row.written { level := page.level, text } ++ ['\n'])) := by
  have hmargin : (if text.isEmpty then "" else indentation page.level) ++ text ++ "\n"
      = String.ofList (Row.written { level := page.level, text } ++ ['\n']) := by
    rw [← String.toList_inj]
    by_cases ht : text.isEmpty <;> simp [Row.written, indentation, ht]
  rw [← hmargin]
  by_cases ht : text.isEmpty <;> simp [line, newline, push, h, ht]

-- A row adds one line to a page on which no line is begun.
theorem lines_addRow (page : Page) (row : Row) (h : page.pending = "") :
    (page.addRow row).lines = page.lines.push (String.ofList (row.written ++ ['\n'])) := by
  unfold addRow
  split <;> exact lines_line { page with level := row.level } row.text h

-- Rows add their lines to a page on which no line is begun, and begin no further one.
theorem lines_foldl_addRow (page : Page) (rows : List Row) (h : page.pending = "") :
    (rows.foldl addRow page).pending = "" ∧
      (rows.foldl addRow page).lines.toList
        = page.lines.toList ++ rows.map fun row => String.ofList (row.written ++ ['\n']) := by
  induction rows generalizing page with
  | nil => simp [h]
  | cons row rest ih =>
      obtain ⟨hpending, hlines⟩ := ih (page.addRow row) (pending_addRow page row)
      rw [lines_addRow page row h, Array.toList_push, List.append_assoc] at hlines
      exact ⟨hpending, hlines⟩

theorem lines_ofRows (rows : List Row) :
    (Page.ofRows rows).lines.toList
      = rows.map fun row => String.ofList (row.written ++ ['\n']) :=
  (lines_foldl_addRow {} rows rfl).2

-- The text of a page that is made of rows holds one line for each of them.
theorem toList_text_ofRows (rows : List Row) :
    (Page.ofRows rows).text.toList = writtenRows rows := by
  have hpending : (Page.ofRows rows).pending = "" := (lines_foldl_addRow {} rows rfl).1
  rw [text, hpending, lines_ofRows]
  simp [writtenRows, List.flatMap_def, Function.comp_def]

end Page

theorem splitOn_writtenRows {rows : List Row} (h : ∀ row ∈ rows, '\n' ∉ row.written) :
    splitOn '\n' (writtenRows rows) = rows.map Row.written ++ [[]] := by
  have hwritten : writtenRows rows
      = ((rows.map Row.written).flatMap fun line => line ++ ['\n']) ++ [] := by
    rw [writtenRows, List.flatMap_map, List.append_nil]
  rw [hwritten, splitOn_flatMap (List.forall_mem_map.mpr h) List.not_mem_nil]

end Codebook.Script
