namespace Codebook.Text

-- What stands between the separators of a text. An empty text has one empty part.
def splitOn (separator : Char) : List Char → List (List Char)
  | [] => [[]]
  | c :: rest =>
    let behind := splitOn separator rest
    if c = separator then [] :: behind
    else
      match behind with
      | [] => [[c]]
      | part :: more => (c :: part) :: more

theorem splitOn_ne_nil (separator : Char) (text : List Char) : splitOn separator text ≠ [] := by
  induction text with
  | nil => simp [splitOn]
  | cons c rest ih =>
    simp only [splitOn]
    split
    · simp
    · split <;> simp

end Codebook.Text
