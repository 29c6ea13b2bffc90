import Codebook.Proofs.Proto.Cuts
import Codebook.Proofs.Proto.Unplaced
import Codebook.Proofs.Proto.Written.Reads

namespace Codebook.Proto

open Codebook.Text

-- Sources without quotes and comments. They are cut to their end, and what is read of them apart
-- from places is a function of their tokens.

def IsPlainSource (text : List Char) : Prop := ∀ c ∈ text, c ≠ '/' ∧ c ≠ '"' ∧ c ≠ '\''

instance : DecidablePred IsPlainSource := fun text => List.decidableBAll _ text

def tokensOf (text : List Char) : List Token := (pieces text).1.filterMap Piece.token

theorem tokensOf_nil : tokensOf [] = [] := by
  rw [tokensOf, pieces.eq_def]
  rfl

theorem tokensOf_append {text : List Char} {tokens : List Token} (h : Lexes text tokens)
    (rest : List Char) : tokensOf (text ++ rest) = tokens ++ tokensOf rest := by
  obtain ⟨ps, rfl, hps⟩ := h
  rw [tokensOf, hps, List.filterMap_append]
  rfl

theorem tokensOf_of_cut {c : Char} {rest more : List Char} {piece : Piece}
    (h : cut c rest = .ok (piece, more)) :
    tokensOf (c :: rest) = piece.token.toList ++ tokensOf more := by
  rw [tokensOf, pieces_of_cut h, tokensOf]
  cases hp : piece.token <;> simp [hp]

theorem cut_of_plain {c : Char} (h : c ≠ '/' ∧ c ≠ '"' ∧ c ≠ '\'') (rest : List Char) :
    ∃ result, cut c rest = .ok result := by
  obtain ⟨hslash, hdouble, hsingle⟩ := h
  by_cases hb : isBlank c
  · exact ⟨_, cut_of_cuts (.blank hb)⟩
  by_cases hw : startsWord c
  · exact ⟨_, cut_word hw rest⟩
  by_cases hd : isDigit c
  · exact ⟨_, cut_number hd rest⟩
  have hquote : ¬ (c = '"' ∨ c = '\'') := not_or.mpr ⟨hdouble, hsingle⟩
  exact ⟨_, cut_of_cuts (.symbol (by simpa using hb) hquote (by simpa using hw) (by simpa using hd)
    fun he => absurd he hslash)⟩

theorem isNoRemark_of_cuts {c : Char} {rest more : List Char} {piece : Piece}
    (hc : c ≠ '/') (h : Cuts c rest piece more) : ∀ token ∈ piece.token, IsNoRemark token := by
  intro token ht
  cases h with
  | blank => simp at ht
  | remark | comment => exact absurd rfl hc
  | quoted | word | number | symbol =>
      obtain rfl := Option.some.inj ht
      exact nofun

theorem pieces_of_plain {text : List Char} (h : IsPlainSource text) :
    (pieces text).2 = none ∧
      ∀ piece ∈ (pieces text).1, ∀ token ∈ piece.token, IsNoRemark token := by
  fun_induction pieces text with
  | case1 => simp
  | case2 c rest fault hcut =>
      obtain ⟨result, hresult⟩ := cut_of_plain (h c List.mem_cons_self) rest
      simp [hcut] at hresult
  | case3 c rest piece more hcut _ behind fault hbehind ih =>
      have hmore : IsPlainSource more := by
        intro d hd
        apply h d
        rw [(cut_eq hcut).1]
        exact List.mem_append_right _ hd
      obtain ⟨hnone, hremarks⟩ := ih hmore
      rw [hbehind] at hnone hremarks
      have hfirst := isNoRemark_of_cuts (h c List.mem_cons_self).1 (cuts_of_cut hcut)
      exact ⟨hnone, List.forall_mem_cons.mpr ⟨hfirst, hremarks⟩⟩

-- The file that has been read where no block is open
def State.file? : State → Option File
  | .declaration (.file f) _ => some f
  | _ => none

theorem unplaced_finish (state : State) (stop : Position) :
    (finish state stop).toOption.map File.unplaced = state.unplaced.file? := by
  cases state with
  | declaration scope doc => cases scope <;> rfl
  | blockName kind => cases kind <;> rfl
  | _ => rfl

theorem unplaced_parse {source : String} (h : IsPlainSource source.toList) :
    (parse source).toOption.map File.unplaced
      = (run start (tokensOf source.toList)).toOption.bind State.file? := by
  obtain ⟨hnone, hremarks⟩ := pieces_of_plain h
  let stream : TokenStream :=
    ⟨place .start (pieces source.toList).1, Position.start.after source.toList⟩
  have hstream : tokenize source = .ok stream := tokenize_of_pieces (Prod.ext rfl hnone)
  have hvalues : stream.tokens.map Located.value = tokensOf source.toList := map_value_place _ _
  have hplain : ∀ found ∈ stream.tokens, IsNoRemark found.value := by
    intro found hf
    have hm : found.value ∈ tokensOf source.toList := hvalues ▸ List.mem_map_of_mem hf
    obtain ⟨piece, hpiece, htoken⟩ := List.mem_filterMap.mp hm
    exact hremarks piece hpiece _ htoken
  have hreached := reached_foldlM stream.tokens start hplain
  rw [hvalues] at hreached
  have hparse : parse source = stream.tokens.foldlM step start >>= fun state =>
      finish state stream.stop := by
    rw [parse, hstream]
    rfl
  rw [hparse]
  show _ = (run start.unplaced (tokensOf source.toList)).toOption.bind State.file?
  rw [← hreached]
  cases stream.tokens.foldlM step start with
  | error fault => rfl
  | ok state => exact unplaced_finish state stream.stop

end Codebook.Proto
