namespace Codebook.Text

-- Whether the code of a character lies in one of some ranges, both ends included
def inRanges (ranges : List (Nat × Nat)) (c : Char) : Bool :=
  ranges.any fun (first, last) => first ≤ c.toNat && c.toNat ≤ last

end Codebook.Text
