namespace Codebook.Text

-- The rows of a text and its lines.

-- The pieces of a text that end behind each line feed. Nothing is lost, and a text that
-- ends with a line feed has no empty piece behind it.
def rows : List Char → List (List Char)
  | [] => []
  | c :: rest =>
    if c = '\n' then [c] :: rows rest
    else
      match rows rest with
      | [] => [[c]]
      | row :: more => (c :: row) :: more

theorem flatten_rows (text : List Char) : (rows text).flatten = text := by
  induction text with
  | nil => rfl
  | cons c rest ih =>
    unfold rows
    split
    · simp [ih]
    · cases h : rows rest with
      | nil => simpa [h] using ih
      | cons row more => simpa [h] using ih

-- A row without its line feed and without one carriage return in front of that
def withoutLineEnd (row : List Char) : List Char :=
  match row.reverse with
  | '\n' :: '\r' :: body => body.reverse
  | '\n' :: body => body.reverse
  | _ => row

-- The lines of a text as they are shown
def lines (text : String) : List String :=
  (rows text.toList).map fun row => String.ofList (withoutLineEnd row)

end Codebook.Text
