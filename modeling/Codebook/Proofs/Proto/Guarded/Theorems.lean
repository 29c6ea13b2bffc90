import Codebook.Proofs.Number.Signs
import Codebook.Proofs.Proto.Guarded.Building
import Codebook.Proofs.Proto.Guarded.Scanning
import Codebook.Proofs.Proto.Spelled

namespace Codebook.Proto

-- The numbers of a source are read without signs: a token ends in front of one.

theorem nonneg_of_readLiteral {text : List Char} {value : Int}
    (h : Number.readLiteral text = some value) (hs : text.any Number.isSign = false) :
    0 ≤ value := by
  obtain ⟨base, digits, hmarked⟩ := Number.exists_marked text
  rw [hmarked.readLiteral_eq] at h
  rw [hmarked.any_isSign] at hs
  have hhead : ∀ c ∈ digits.head?, Number.isSign c = false := fun c hc =>
    Bool.eq_false_iff.mpr (List.any_eq_false.mp hs c (List.mem_of_mem_head? hc))
  rw [Number.signed_of_head hhead] at h
  obtain ⟨hvalue, -⟩ := Option.filter_eq_some_iff.mp h
  obtain ⟨n, -, rfl⟩ := Option.map_eq_some_iff.mp hvalue
  exact Int.natCast_nonneg n

theorem isSign_of_inNumber {c : Char} (h : inNumber c) : Number.isSign c = false := by
  refine Bool.eq_false_iff.mpr fun hs => ?_
  rw [Number.isSign, Bool.or_eq_true, beq_iff_eq, beq_iff_eq] at hs
  rcases hs with rfl | rfl <;> exact absurd h (by decide)

namespace Guarded

theorem areUnsigned_of_tokenize {source : String} {stream : TokenStream}
    (h : Proto.tokenize source = .ok stream) : AreUnsigned stream := by
  intro found hm text value hvalue hliteral
  have hspelled := isSpellable_of_tokenize h found.value (List.mem_map_of_mem hm)
  rw [hvalue] at hspelled
  obtain ⟨c, run, htext, hc, hrun⟩ := hspelled
  refine nonneg_of_readLiteral hliteral (List.any_eq_false.mpr fun d hd => ?_)
  rw [htext] at hd
  have hd : inNumber d := by
    rcases List.mem_cons.mp hd with rfl | hd
    · simp [inNumber, hc]
    · exact hrun d hd
  rw [isSign_of_inNumber hd]
  exact Bool.false_ne_true

-- A source that is cut and read with every slice, every token, every count and every number
-- checked where it is taken, and with every loop checked to move on
def parse (source : String) : Except Trap (Except Fault File) :=
  match tokenize source with
  | .error why => .error why
  | .ok (.error fault) => .ok (.error fault)
  | .ok (.ok (tokens, stop)) => (file (TokenStream.all ⟨tokens, stop⟩)).map (·.map Prod.fst)

-- No check ever fails, whatever the source is, and reading it with checks comes to the same file
-- or the same fault.
theorem parse_passes_guards (source : String) : parse source = .ok (Proto.parse source) := by
  unfold parse Proto.parse
  rw [tokenize_eq]
  cases hstream : Proto.tokenize source with
  | error fault => rfl
  | ok stream =>
      have hfile := file_eq (areUnsigned_of_tokenize hstream)
      simp only [Except.map, bind, Except.bind]
      rw [hfile]
      cases parseTokens stream <;> rfl

end Guarded

end Codebook.Proto
