import Codebook.Proofs.Proto.Attached
import Codebook.Proofs.Proto.Spelled

namespace Codebook.Proto

-- The docs of an accepted source are in normal form, but for the empty remark behind a value.

-- A message comes before those in it.
def File.everyMessage (file : File) : List Message := (nestedIn [] file.messages).map Prod.snd

def File.everyEnum (file : File) : List Enumeration :=
  file.enums ++ file.everyMessage.flatMap Message.enums

-- What is attached to a file is attached to everything in it.

mutual

theorem Message.isAttached_of_mem_nested {tokens : List (Located Token)} :
    (message : Message) → message.IsAttached tokens → (above : List String) →
      ∀ pair ∈ message.nested above, pair.2.IsAttached tokens
  | ⟨name, _, messages, _, _⟩, hm, above => by
    obtain ⟨hdoc, hmessages, henums⟩ := hm
    rw [Message.nested]
    exact List.forall_mem_cons.mpr ⟨.intro hdoc hmessages henums,
      isAttached_of_mem_nestedIn messages hmessages (above ++ [name])⟩

theorem isAttached_of_mem_nestedIn {tokens : List (Located Token)} :
    (messages : List Message) → (∀ message ∈ messages, message.IsAttached tokens) →
      (above : List String) → ∀ pair ∈ nestedIn above messages, pair.2.IsAttached tokens
  | [], _, _ => by simp [nestedIn]
  | message :: rest, hm, above => by
    obtain ⟨hmessage, hrest⟩ := List.forall_mem_cons.mp hm
    rw [nestedIn]
    exact List.forall_mem_append.mpr ⟨message.isAttached_of_mem_nested hmessage above,
      isAttached_of_mem_nestedIn rest hrest above⟩

end

section

variable {file : File} {tokens : List (Located Token)}

theorem File.IsAttached.everyMessage (h : file.IsAttached tokens) :
    ∀ message ∈ file.everyMessage, message.IsAttached tokens := by
  intro message hm
  obtain ⟨pair, hpair, rfl⟩ := List.mem_map.mp hm
  exact isAttached_of_mem_nestedIn file.messages h.messages [] pair hpair

theorem File.IsAttached.everyEnum (h : file.IsAttached tokens) :
    ∀ enumeration ∈ file.everyEnum, enumeration.IsAttached tokens := by
  refine List.forall_mem_append.mpr ⟨h.enums, fun enumeration he => ?_⟩
  obtain ⟨message, hm, he⟩ := List.mem_flatMap.mp he
  obtain ⟨-, -, henums⟩ := h.everyMessage message hm
  exact henums enumeration he

theorem isNormalDoc_docBefore {values : List Token} (h : ∀ token ∈ values, token.IsSpellable) :
    IsNormalDoc (docBefore values) := by
  unfold docBefore
  cases hlast : ((values.rtakeWhile Token.isComment).filterMap Token.lines?).getLast? with
  | none => exact isNormalDoc_nil
  | some lines =>
      obtain ⟨token, htoken, hlines⟩ := List.mem_filterMap.mp (List.mem_of_getLast? hlast)
      have hspellable := h token ((List.rtakeWhile_suffix _ _).subset htoken)
      cases token with
      | doc =>
          obtain rfl := Option.some.inj hlines
          exact ⟨fun line hl => (hspellable.lines line hl).trimmed,
            fun line hl => (hspellable.lines line hl).noLineFeed, hspellable.head, hspellable.last⟩
      | _ => simp [Token.lines?] at hlines

theorem isNormalDoc_remarkBehind {stop : Position}
    (h : ∀ token ∈ tokens.map Located.value, token.IsSpellable) :
    IsNormalDoc (remarkBehind stop tokens) ↔ remarkBehind stop tokens ≠ [""] := by
  refine ⟨fun hnormal he => hnormal.head (by rw [he]; rfl), fun hne => ?_⟩
  unfold remarkBehind at hne ⊢
  split at hne
  · rename_i text covered rest
    obtain ⟨⟨htrim, hfeed⟩, -⟩ := List.forall_mem_cons.mp h
    split_ifs at hne ⊢ with hline
    · have hempty : text ≠ "" := fun he => hne (congrArg ([·]) he)
      refine ⟨List.forall_mem_singleton.mpr htrim, List.forall_mem_singleton.mpr hfeed, ?_, ?_⟩
      · exact fun he => hempty (Option.some.inj he)
      · exact fun he => hempty (Option.some.inj he)
    · exact isNormalDoc_nil
  · exact isNormalDoc_nil

-- The doc of a value is in normal form unless an empty remark gives it.
def EnumValue.IsNormalUnlessEmpty (tokens : List (Located Token)) (value : EnumValue) : Prop :=
  ∃ front name between semicolon behind,
    tokens = front ++ name :: (between ++ semicolon :: behind) ∧ name.value = .word value.name ∧
      semicolon.value = .symbol ';' ∧ value.span = ⟨name.span.start, semicolon.span.stop⟩ ∧
      (docBefore (front.map Located.value) = [] ∧
          remarkBehind semicolon.span.stop behind = [""] ∧ value.doc = [""] ∨
        ¬ (docBefore (front.map Located.value) = [] ∧
          remarkBehind semicolon.span.stop behind = [""]) ∧ IsNormalDoc value.doc)

theorem EnumValue.IsAttached.isNormalUnlessEmpty {value : EnumValue}
    (h : value.IsAttached tokens)
    (ht : ∀ token ∈ tokens.map Located.value, token.IsSpellable) :
    value.IsNormalUnlessEmpty tokens := by
  obtain ⟨front, name, between, semicolon, behind, rfl, hname, hsemicolon, hspan, hdoc⟩ := h
  refine ⟨front, name, between, semicolon, behind, rfl, hname, hsemicolon, hspan, ?_⟩
  simp only [List.map_append, List.map_cons, List.forall_mem_append, List.forall_mem_cons] at ht
  obtain ⟨hfront, -, -, -, hbehind⟩ := ht
  rw [hdoc]
  by_cases hnone : docBefore (front.map Located.value) = []
  · rw [if_pos hnone]
    by_cases hempty : remarkBehind semicolon.span.stop behind = [""]
    · exact .inl ⟨hnone, hempty, hempty⟩
    · exact .inr ⟨fun he => hempty he.2, (isNormalDoc_remarkBehind hbehind).mpr hempty⟩
  · rw [if_neg hnone]
    exact .inr ⟨fun he => hnone he.1, isNormalDoc_docBefore hfront⟩

theorem isNormalDoc_of_isAttached {keyword : String} {first : Position} {doc : List String}
    (h : IsAttached tokens keyword first doc)
    (ht : ∀ token ∈ tokens.map Located.value, token.IsSpellable) : IsNormalDoc doc := by
  obtain ⟨front, found, behind, rfl, -, -, rfl⟩ := h
  rw [List.map_append] at ht
  exact isNormalDoc_docBefore (List.forall_mem_append.mp ht).1

end

theorem normal_of_parse {source : String} {file : File} (h : parse source = .ok file) :
    ∃ stream, tokenize source = .ok stream ∧
      (∀ message ∈ file.everyMessage, IsNormalDoc message.doc) ∧
      ∀ enumeration ∈ file.everyEnum, IsNormalDoc enumeration.doc ∧
        ∀ value ∈ enumeration.values, value.IsNormalUnlessEmpty stream.tokens := by
  obtain ⟨stream, hstream, hparse⟩ := bind_eq_ok.mp h
  have hattached := isAttached_parseTokens hparse
  have hspellable := isSpellable_of_tokenize hstream
  refine ⟨stream, hstream, fun message hm => ?_, fun enumeration he => ⟨?_, fun value hv => ?_⟩⟩
  · obtain ⟨hdoc, -, -⟩ := hattached.everyMessage message hm
    exact isNormalDoc_of_isAttached hdoc hspellable
  · exact isNormalDoc_of_isAttached (hattached.everyEnum enumeration he).doc hspellable
  · exact ((hattached.everyEnum enumeration he).values value hv).isNormalUnlessEmpty hspellable

end Codebook.Proto
