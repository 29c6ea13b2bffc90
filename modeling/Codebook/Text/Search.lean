namespace Codebook.Text

-- Whether a pattern stands somewhere in a text
def occursIn (pattern : List Char) : List Char → Bool
  | [] => pattern.isEmpty
  | c :: rest => pattern.isPrefixOf (c :: rest) || occursIn pattern rest

theorem occursIn_iff {pattern text : List Char} :
    occursIn pattern text ↔ pattern <:+: text := by
  induction text with
  | nil => simp [occursIn]
  | cons c rest ih => simp [occursIn, ih, List.infix_cons_iff]

end Codebook.Text
