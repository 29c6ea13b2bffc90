import Codebook.Proofs.Proto.Cuts
import Codebook.Proofs.Proto.Written.Reads

namespace Codebook.Proto

open Codebook.Text

-- Tokens that are written one on each line are read back. A line feed ends words, numbers and
-- remarks, and a symbol in front of it begins no comment.

-- A character of a quoted text as it stands between double quotes
def escape (c : Char) : List Char := if c = '"' ∨ c = '\\' ∨ c = '\n' then ['\\', c] else [c]

def Token.spelling : Token → List Char
  | .word name => name.toList
  | .number digits => digits.toList
  | .symbol c => [c]
  | .quoted value => '"' :: (value.toList.flatMap escape ++ ['"'])
  | .remark text => '/' :: '/' :: ' ' :: text.toList
  | .doc lines => '/' :: '*' :: '*' :: '\n' :: (lines.flatMap rowText ++ [' ', '*', '/'])

def spelled (tokens : List Token) : String :=
  String.ofList (tokens.flatMap fun token => token.spelling ++ ['\n'])

-- What a token holds when it comes from a source
def Token.IsSpellable : Token → Prop
  | .word name => IsIdentifier name.toList
  | .number digits => ∃ c run, digits.toList = c :: run ∧ isDigit c ∧ ∀ d ∈ run, inNumber d
  | .symbol c => isBlank c = false ∧ ¬ (c = '"' ∨ c = '\'') ∧ startsWord c = false ∧
      isDigit c = false
  | .quoted _ => True
  | .remark text => trim text.toList = text.toList ∧ '\n' ∉ text.toList
  | .doc lines => IsDoc lines

theorem isSpellable_of_cuts {c : Char} {rest more : List Char} {piece : Piece}
    (h : Cuts c rest piece more) : ∀ token ∈ piece.token, token.IsSpellable := by
  intro token ht
  cases h with
  | blank => simp at ht
  | @remark run _ hr =>
      obtain rfl := Option.some.inj ht
      refine ⟨trim_remarkText _, no_lineFeed_remarkText ?_⟩
      simpa using fun hm => hr _ hm rfl
  | comment hb =>
      simp only [commentPiece] at ht
      split at ht
      · obtain rfl := Option.some.inj ht
        exact isDoc_docLines (not_infix_of_splitComment hb)
      · simp at ht
  | quoted =>
      obtain rfl := Option.some.inj ht
      trivial
  | word hc hr =>
      obtain rfl := Option.some.inj ht
      show IsIdentifier (String.ofList _).toList
      rw [String.toList_ofList]
      exact ⟨hc, List.all_eq_true.mpr hr⟩
  | number hc hr =>
      obtain rfl := Option.some.inj ht
      exact ⟨_, _, String.toList_ofList, hc, hr⟩
  | symbol hb hq hw hd =>
      obtain rfl := Option.some.inj ht
      exact ⟨hb, hq, hw, hd⟩

theorem isSpellable_of_tokenize {source : String} {stream : TokenStream}
    (h : tokenize source = .ok stream) :
    ∀ token ∈ stream.tokens.map Located.value, token.IsSpellable := by
  obtain ⟨ps, hps, rfl⟩ := tokenize_eq_ok.mp h
  intro token ht
  rw [map_value_place] at ht
  obtain ⟨piece, hpiece, htoken⟩ := List.mem_filterMap.mp ht
  have hpieces := forall_mem_pieces isSpellable_of_cuts source.toList
  rw [hps] at hpieces
  exact hpieces piece hpiece token htoken

theorem splitQuoted_escape (c : Char) {rest : List Char} (hne : rest ≠ []) :
    splitQuoted '"' (escape c ++ rest) = (splitQuoted '"' rest).behind [c] (escape c) := by
  unfold escape
  split
  · simp [splitQuoted]
  · rename_i hplain
    obtain ⟨hquote, hslash, hfeed⟩ : c ≠ '"' ∧ c ≠ '\\' ∧ c ≠ '\n' := by simpa using hplain
    obtain ⟨d, rest, rfl⟩ := List.exists_cons_of_ne_nil hne
    rw [List.singleton_append, splitQuoted, if_neg hquote, if_neg hslash, if_neg hfeed]

theorem splitQuoted_escaped (value rest : List Char) :
    splitQuoted '"' (value.flatMap escape ++ ['"'] ++ rest)
      = .closed value (value.flatMap escape ++ ['"']) rest := by
  induction value with
  | nil => cases rest <;> rfl
  | cons c value ih =>
      have hne : value.flatMap escape ++ ['"'] ++ rest ≠ [] := by simp
      rw [List.flatMap_cons, List.append_assoc, List.append_assoc, ← List.append_assoc _ _ rest,
        splitQuoted_escape c hne, ih, List.append_assoc]
      rfl

theorem remarkText_spelling {text : String} (h : trim text.toList = text.toList) :
    remarkText ('/' :: '/' :: ' ' :: text.toList) = text := by
  have hslashes : ('/' :: '/' :: ' ' :: text.toList).dropWhile (· == '/') = ' ' :: text.toList :=
    rfl
  rw [remarkText, hslashes, trim_cons_blank (by decide), h, String.ofList_toList]

namespace Lexes

variable {text : List Char} {tokens : List Token}

theorem symbol_lineFeed {c : Char} (hc : (Token.symbol c).IsSpellable)
    (h : Lexes ('\n' :: text) tokens) : Lexes (c :: '\n' :: text) (.symbol c :: tokens) := by
  obtain ⟨hb, hq, hw, hd⟩ := hc
  refine Lexes.of_cut (fun rest => cut_of_cuts (.symbol hb hq hw hd fun _ d hfeed => ?_)) h
  obtain rfl : '\n' = d := Option.some.inj hfeed
  decide

theorem quoted (value : String) (h : Lexes text tokens) :
    Lexes ('"' :: (value.toList.flatMap escape ++ ['"'] ++ text)) (.quoted value :: tokens) := by
  have hcut (rest : List Char) : cut '"' (value.toList.flatMap escape ++ ['"'] ++ text ++ rest)
      = .ok (⟨'"' :: (value.toList.flatMap escape ++ ['"']), some (.quoted value)⟩,
        text ++ rest) := by
    have hcuts := cut_of_cuts (.quoted (.inl rfl) (splitQuoted_escaped value.toList
      (text ++ rest)))
    rwa [String.ofList_toList, ← List.append_assoc _ text rest] at hcuts
  exact Lexes.of_cut hcut h

theorem remark {line : String} (hl : (Token.remark line).IsSpellable)
    (h : Lexes ('\n' :: text) tokens) :
    Lexes ('/' :: '/' :: ' ' :: (line.toList ++ '\n' :: text)) (.remark line :: tokens) := by
  obtain ⟨htrim, hfeed⟩ := hl
  have hrun : ∀ d ∈ ' ' :: line.toList, d ≠ '\n' :=
    List.forall_mem_cons.mpr ⟨by decide, fun d hd he => hfeed (he ▸ hd)⟩
  have hcut (rest : List Char) :
      cut '/' ('/' :: ' ' :: (line.toList ++ '\n' :: text) ++ rest)
        = .ok (⟨'/' :: '/' :: ' ' :: line.toList, some (.remark line)⟩, '\n' :: text ++ rest) := by
    have hend : ∀ d ∈ ('\n' :: text ++ rest).head?, d = '\n' :=
      fun d hd => (Option.some.inj hd).symm
    have hcuts := cut_of_cuts (.remark hrun hend)
    rw [runPiece, remarkText_spelling htrim] at hcuts
    rw [← hcuts]
    simp
  exact Lexes.of_cut hcut h

theorem spelling {token : Token} (ht : token.IsSpellable) (h : Lexes ('\n' :: text) tokens) :
    Lexes (token.spelling ++ '\n' :: text) (token :: tokens) := by
  cases token with
  | word name =>
      have hword := Lexes.word ht (by decide) h
      rwa [String.ofList_toList] at hword
  | number digits =>
      obtain ⟨d, run, hdigits, hd, hr⟩ := ht
      have hnumber := Lexes.number hd hr (by decide) h
      rwa [← hdigits, String.ofList_toList, ← List.cons_append, ← hdigits] at hnumber
  | symbol c => exact Lexes.symbol_lineFeed ht h
  | quoted value => exact Lexes.quoted value h
  | remark line => exact Lexes.remark ht h
  | doc lines =>
      have hdoc := Lexes.doc (isInside_docBody ht.lines) rfl h
      rw [docLines_docBody ht] at hdoc
      simpa [Token.spelling, docBody] using hdoc

end Lexes

theorem lexes_spelled {tokens : List Token} (h : ∀ token ∈ tokens, token.IsSpellable) :
    Lexes (spelled tokens).toList tokens := by
  rw [spelled, String.toList_ofList]
  induction tokens with
  | nil => exact Lexes.nil
  | cons token rest ih =>
      obtain ⟨htoken, hrest⟩ := List.forall_mem_cons.mp h
      rw [List.flatMap_cons, List.append_assoc]
      exact Lexes.spelling htoken (Lexes.blank (by decide) (ih hrest))

theorem tokenize_spelled {source : String} {stream : TokenStream}
    (h : tokenize source = .ok stream) :
    ∃ again, tokenize (spelled (stream.tokens.map Located.value)) = .ok again ∧
      again.tokens.map Located.value = stream.tokens.map Located.value :=
  tokenize_of_lexes (lexes_spelled (isSpellable_of_tokenize h))

-- Marks that would be read as others if they stood closer or without their escapes
def looseMarks : String := "/ / 'a\"\\\\\\\nb' /***/ /** ** /c */ //// /d"

theorem tokenize_spelled_looseMarks : ∃ stream, tokenize looseMarks = .ok stream ∧
    stream.tokens.map Located.value = [.symbol '/', .symbol '/', .quoted "a\"\\\nb", .doc [],
      .doc ["** /c"], .remark "/d"] ∧
    spelled (stream.tokens.map Located.value)
      = "/\n/\n\"a\\\"\\\\\\\nb\"\n/**\n */\n/**\n * ** /c\n */\n// /d\n" ∧
    ∃ again, tokenize (spelled (stream.tokens.map Located.value)) = .ok again ∧
      again.tokens.map Located.value = stream.tokens.map Located.value := by
  have hnone : (pieces looseMarks.toList).2 = none := by decide +kernel
  have htokens : (pieces looseMarks.toList).1.filterMap Piece.token
      = [.symbol '/', .symbol '/', .quoted "a\"\\\nb", .doc [], .doc ["** /c"],
        .remark "/d"] := by
    decide +kernel
  have hstream := tokenize_of_pieces (Prod.ext rfl hnone)
  have hvalues := (map_value_place (pieces looseMarks.toList).1 .start).trans htokens
  have hspelled : spelled [.symbol '/', .symbol '/', .quoted "a\"\\\nb", .doc [], .doc ["** /c"],
      .remark "/d"]
      = "/\n/\n\"a\\\"\\\\\\\nb\"\n/**\n */\n/**\n * ** /c\n */\n// /d\n" := by
    decide +kernel
  exact ⟨_, hstream, hvalues, (congrArg spelled hvalues).trans hspelled, tokenize_spelled hstream⟩

end Codebook.Proto
