import Codebook.Proofs.Proto.Cuts
import Codebook.Proofs.Proto.Truncated.Theorems
import Codebook.Proofs.Proto.Written.Reads

namespace Codebook.Proto

-- Where the tokens of a source stand. Their places say how much is in front of them, their texts
-- are what they are written as, and between them is nothing but blanks and plain comments.

open Text

-- Blanks, and comments that document nothing. A comment ends at the first end that it has.
inductive IsGap : List Char → Prop
  | nil : IsGap []
  | blank {c : Char} {rest : List Char} (hb : isBlank c) (hr : IsGap rest) : IsGap (c :: rest)
  | comment {body rest : List Char} (hs : body.head? ≠ some '*') (he : ¬ ['*', '/'] <:+: body)
      (hr : IsGap rest) : IsGap ('/' :: '*' :: (body ++ '*' :: '/' :: rest))

theorem IsGap.append {front behind : List Char} (hf : IsGap front) (hb : IsGap behind) :
    IsGap (front ++ behind) := by
  induction hf with
  | nil => exact hb
  | blank hc _ ih => exact .blank hc ih
  | comment hs he _ ih => simpa using IsGap.comment hs he ih

-- What a token is written as
def Token.IsWrittenAs (text : List Char) : Token → Prop
  | .word name => text = name.toList
  | .number digits => text = digits.toList
  | .symbol c => text = [c]
  | .quoted _ => ∃ quote inside, (quote = '"' ∨ quote = '\'') ∧ text = quote :: (inside ++ [quote])
  | .remark _ => ['/', '/'] <+: text ∧ '\n' ∉ text
  | .doc _ => ['/', '*', '*'] <+: text ∧ ['*', '/'] <:+ text

-- A piece is a token as it is written, or it has a place between tokens.
def Piece.IsWritten (piece : Piece) : Prop :=
  match piece.token with
  | some token => token.IsWrittenAs piece.text
  | none => IsGap piece.text

theorem exists_of_splitQuoted {quote : Char} {text value written rest : List Char}
    (h : splitQuoted quote text = .closed value written rest) :
    ∃ inside, written = inside ++ [quote] := by
  fun_induction splitQuoted quote text generalizing value written rest with
  | case1 => simp at h
  | case2 =>
      obtain ⟨-, rfl, -⟩ := Quoted.closed.inj h
      exact ⟨[], rfl⟩
  | case3 => simp at h
  | case4 =>
      obtain ⟨-, rfl, -⟩ := Quoted.closed.inj h
      exact ⟨[], rfl⟩
  | case5 d rest hc ih =>
      obtain ⟨_, written, hq, -, rfl⟩ := Quoted.behind_eq_closed h
      obtain ⟨inside, rfl⟩ := ih hq
      exact ⟨_, (List.append_assoc _ inside [quote]).symm⟩
  | case6 => simp at h
  | case7 c d rest _ _ _ ih =>
      obtain ⟨_, written, hq, -, rfl⟩ := Quoted.behind_eq_closed h
      obtain ⟨inside, rfl⟩ := ih hq
      exact ⟨_, (List.append_assoc _ inside [quote]).symm⟩

theorem isWritten_commentPiece {body : List Char} (he : ¬ ['*', '/'] <:+: body) :
    (commentPiece body).IsWritten := by
  have hplain : body.head? ≠ some '*' → IsGap ('/' :: '*' :: (body ++ ['*', '/'])) :=
    fun hs => .comment hs he .nil
  unfold Piece.IsWritten commentPiece
  dsimp only
  by_cases hs : body.head? = some '*'
  · rw [if_pos hs]
    obtain ⟨more, rfl⟩ := List.head?_eq_some_iff.mp hs
    exact ⟨⟨more ++ ['*', '/'], rfl⟩, ⟨'/' :: '*' :: '*' :: more, rfl⟩⟩
  · rw [if_neg hs]
    exact hplain hs

theorem isWritten_of_cuts {c : Char} {rest more : List Char} {piece : Piece}
    (h : Cuts c rest piece more) : piece.IsWritten := by
  cases h with
  | blank hb => exact .blank hb .nil
  | @remark run _ hr he =>
      refine ⟨⟨run, rfl⟩, ?_⟩
      simp only [runPiece, List.mem_cons, not_or]
      exact ⟨by decide, by decide, fun hm => hr _ hm rfl⟩
  | comment hb => exact isWritten_commentPiece (not_infix_of_splitComment hb)
  | quoted hc hq =>
      obtain ⟨inside, rfl⟩ := exists_of_splitQuoted hq
      exact ⟨c, inside, hc, rfl⟩
  | word hc hr he => exact (String.toList_ofList).symm
  | number hc hr he => exact (String.toList_ofList).symm
  | symbol hb hq hw hd hs => exact rfl

-- A token is placed at the piece that it was cut from.
theorem exists_of_mem_place {ps : List Piece} {p : Position} {found : Located Token}
    (h : found ∈ place p ps) : ∃ front piece behind, ps = front ++ piece :: behind ∧
      piece.token = some found.value ∧
      found.span = Span.covering (p.after (front.flatMap Piece.text)) piece.text := by
  induction ps generalizing p with
  | nil => simp [place] at h
  | cons first rest ih =>
      have hbehind (hm : found ∈ place (p.after first.text) rest) :
          ∃ front piece behind, first :: rest = front ++ piece :: behind ∧
            piece.token = some found.value ∧
            found.span = Span.covering (p.after (front.flatMap Piece.text)) piece.text := by
        obtain ⟨front, piece, behind, rfl, htoken, hspan⟩ := ih hm
        refine ⟨first :: front, piece, behind, rfl, htoken, ?_⟩
        rw [List.flatMap_cons, Position.after_append, hspan]
      rw [place] at h
      split at h
      · rename_i token htoken
        rcases List.mem_cons.mp h with rfl | h
        · exact ⟨[], first, rest, rfl, htoken, rfl⟩
        · exact hbehind h
      · exact hbehind h

-- One span comes behind another, with nothing but a gap between them.
def Follows (source : List Char) (before next : Span) : Prop :=
  before.stop.byte ≤ next.start.byte ∧ IsGap (slice before.stop.byte next.start.byte source)

theorem follows_of_gap {front gap behind : List Char} {before next : Span} (hg : IsGap gap)
    (hb : before.stop = Position.start.after front)
    (hn : next.start = Position.start.after (front ++ gap)) :
    Follows (front ++ (gap ++ behind)) before next := by
  rw [Follows, hb, hn, byte_after_start, byte_after_start, byteLength_append,
    ← List.append_assoc, slice_append]
  exact ⟨Nat.le_add_right _ _, hg⟩

theorem isChain_place {source front gap : List Char} {ps : List Piece} {before : Span}
    (hw : ∀ piece ∈ ps, piece.IsWritten) (hg : IsGap gap)
    (hs : source = front ++ (gap ++ ps.flatMap Piece.text))
    (hb : before.stop = Position.start.after front) :
    (before :: ((place (Position.start.after (front ++ gap)) ps).map Located.span
      ++ [Span.point (Position.start.after source)])).IsChain (Follows source) := by
  induction ps generalizing front gap before with
  | nil =>
      subst hs
      refine List.isChain_cons_cons.mpr ⟨follows_of_gap hg hb ?_, .singleton _⟩
      simp [Span.point]
  | cons piece rest ih =>
      obtain ⟨hpiece, hrest⟩ := List.forall_mem_cons.mp hw
      rw [place]
      cases htoken : piece.token with
      | none =>
          have hmore : IsGap (gap ++ piece.text) := by
            rw [Piece.IsWritten, htoken] at hpiece
            exact hg.append hpiece
          have hchain := ih hrest hmore (by simpa using hs) hb
          rw [← List.append_assoc, Position.after_append] at hchain
          exact hchain
      | some token =>
          have hcovered : (Span.covering (Position.start.after (front ++ gap)) piece.text).stop
              = Position.start.after (front ++ gap ++ piece.text) := by
            rw [Position.after_append _ (front ++ gap)]
            rfl
          have hchain := ih hrest IsGap.nil (by simpa using hs) hcovered
          rw [List.append_nil, Position.after_append _ (front ++ gap)] at hchain
          rw [List.flatMap_cons] at hs
          exact List.isChain_cons_cons.mpr ⟨hs ▸ follows_of_gap hg hb rfl, hchain⟩

-- The tokens of a source, and its end as the last of them
def TokenStream.all (stream : TokenStream) : List (Located (Option Token)) :=
  stream.tokens.map (fun found => ⟨some found.value, found.span⟩)
    ++ [⟨none, Span.point stream.stop⟩]

-- What is so of the places of all tokens of a source
structure TokenStream.IsPlaced (source : String) (stream : TokenStream) : Prop where
  ends : ∀ found ∈ stream.all, found.span.start.IsIn source.toList ∧
    found.span.stop.IsIn source.toList ∧ found.span.start.byte ≤ found.span.stop.byte
  last : ∃ front stop, stream.all = front ++ [⟨none, Span.point stop⟩] ∧
    (∀ found ∈ front, found.value ≠ none) ∧ stop.byte = source.utf8ByteSize
  texts : ∀ found ∈ stream.tokens,
    found.value.IsWrittenAs (slice found.span.start.byte found.span.stop.byte source.toList)
  gaps : (Span.point .start :: stream.all.map Located.span).IsChain (Follows source.toList)

-- A token is cut from a source behind some text, and it is written as some text.
structure IsCutFrom (source front text : List Char) (found : Located Token) : Prop where
  stands : ∃ behind, source = front ++ (text ++ behind)
  written : found.value.IsWrittenAs text
  span : found.span = Span.covering (Position.start.after front) text

theorem exists_isCutFrom {source : List Char} {ps : List Piece} (hps : pieces source = (ps, none))
    {found : Located Token} (hm : found ∈ place .start ps) :
    ∃ front text, IsCutFrom source front text found := by
  obtain ⟨front, piece, behind, rfl, htoken, hspan⟩ := exists_of_mem_place hm
  have hwritten := forall_mem_pieces isWritten_of_cuts source
  rw [hps] at hwritten
  have hpiece := hwritten piece (by simp)
  rw [Piece.IsWritten, htoken] at hpiece
  have hsource := flatMap_pieces hps
  exact ⟨front.flatMap Piece.text, piece.text,
    ⟨behind.flatMap Piece.text, by simp [← hsource]⟩, hpiece, hspan⟩

theorem IsCutFrom.covers {source front text : List Char} {found : Located Token}
    (h : IsCutFrom source front text found) : found.span.Covers source text := by
  obtain ⟨behind, hsource⟩ := h.stands
  exact ⟨front, behind, hsource, h.span⟩

theorem isPlaced_of_tokenize {source : String} {stream : TokenStream}
    (h : tokenize source = .ok stream) : stream.IsPlaced source := by
  obtain ⟨ps, hps, rfl⟩ := tokenize_eq_ok.mp h
  refine ⟨fun found hm => ?_, ⟨_, _, rfl, ?_, ?_⟩, fun found hm => ?_, ?_⟩
  · rcases List.mem_append.mp hm with hm | hm
    · obtain ⟨token, htoken, rfl⟩ := List.mem_map.mp hm
      obtain ⟨front, text, hcut⟩ := exists_isCutFrom hps htoken
      obtain ⟨hstart, hstop⟩ := hcut.covers.isIn
      exact ⟨hstart, hstop, hcut.covers.start_le_stop⟩
    · obtain rfl := List.mem_singleton.mp hm
      have hend := isIn_after source.toList []
      rw [List.append_nil] at hend
      exact ⟨hend, hend, Nat.le_refl _⟩
  · intro found hm
    obtain ⟨token, -, rfl⟩ := List.mem_map.mp hm
    simp
  · show (Position.start.after source.toList).byte = _
    rw [byte_after_start, utf8ByteSize_eq_byteLength]
  · obtain ⟨front, text, hcut⟩ := exists_isCutFrom hps hm
    exact hcut.covers.slice_eq ▸ hcut.written
  · have hwritten := forall_mem_pieces isWritten_of_cuts source.toList
    rw [hps] at hwritten
    have hstart : (Span.point .start).stop = Position.start.after [] := rfl
    have hchain := isChain_place hwritten IsGap.nil (flatMap_pieces hps).symm hstart
    simpa [TokenStream.all, Function.comp_def] using hchain

-- A token of each kind, one of them over two lines, and a comment between two tokens
def sixKinds : String := "// \u00e9\n/** Key. */ a = /* b */ 1, \"c\\\nd\""

theorem isPlaced_sixKinds : ∃ stream, tokenize sixKinds = .ok stream ∧
    stream.tokens.map Located.value = [.remark "\u00e9", .doc ["Key."], .word "a", .symbol '=',
      .number "1", .symbol ',', .quoted "c\nd"] ∧ stream.IsPlaced sixKinds := by
  have hnone : (pieces sixKinds.toList).2 = none := by decide +kernel
  have htokens : (pieces sixKinds.toList).1.filterMap Piece.token
      = [.remark "\u00e9", .doc ["Key."], .word "a", .symbol '=', .number "1", .symbol ',',
        .quoted "c\nd"] := by
    decide +kernel
  have hstream := tokenize_of_pieces (Prod.ext rfl hnone)
  exact ⟨_, hstream, (map_value_place _ _).trans htokens, isPlaced_of_tokenize hstream⟩

end Codebook.Proto
