import Codebook.Proofs.Number.Signs
import Codebook.Proofs.Proto.Plain

namespace Codebook.Proto

open Codebook.Text

-- What a text is read as that stands between the equals sign of a value and its semicolon.

-- Texts that are cut only at their signs and punctuation marks. Neither options nor comments
-- begin in them.
def IsLiteralText (text : List Char) : Prop :=
  ∀ c ∈ text, isBlank c = false ∧ c ∉ [',', ';', '"', '\'', '[', '/']

instance : DecidablePred IsLiteralText := fun text => List.decidableBAll _ text

theorem isLetter_or_isDigit_of_digitOf {c : Char} (h : (Number.digitOf c).isSome) :
    isLetter c ∨ isDigit c := by
  unfold Number.digitOf at h
  simp only [isLetter, isDigit, Bool.or_eq_true, Bool.and_eq_true, decide_eq_true_eq]
  split at h
  · rename_i hc
    exact .inr hc
  split at h
  · rename_i hc
    exact .inl (.inl ⟨hc.1, Char.le_trans hc.2 (by decide : 'f' ≤ 'z')⟩)
  split at h
  · rename_i hc
    exact .inl (.inr ⟨hc.1, Char.le_trans hc.2 (by decide : 'F' ≤ 'Z')⟩)
  · simp at h

theorem inNumber_of_digitOf {c : Char} (h : (Number.digitOf c).isSome) : inNumber c := by
  rcases isLetter_or_isDigit_of_digitOf h with h | h <;> simp [inNumber, h]

theorem isSign_eq_false_of_inNumber {c : Char} (h : inNumber c) : Number.isSign c = false := by
  by_contra hs
  rw [Bool.not_eq_false, Number.isSign, Bool.or_eq_true, beq_iff_eq, beq_iff_eq] at hs
  rcases hs with rfl | rfl <;> exact absurd h (by decide)

-- A letter stands for ten or more.
theorem isDigit_of_digitBelow {c : Char} {digit : Nat}
    (h : Number.digitBelow 10 c = some digit) : isDigit c := by
  obtain ⟨hdigit, hlt⟩ := Option.filter_eq_some_iff.mp h
  rw [decide_eq_true_eq] at hlt
  unfold Number.digitOf at hdigit
  split at hdigit
  · rename_i hc
    simpa [isDigit] using hc
  split at hdigit
  · rename_i hc
    have hlow : 97 ≤ c.toNat := hc.1
    have := Option.some.inj hdigit
    omega
  split at hdigit
  · rename_i hc
    have hlow : 65 ≤ c.toNat := hc.1
    have := Option.some.inj hdigit
    omega
  · simp at hdigit

-- A literal with no sign is one token.
theorem inNumber_of_unsigned {text : List Char} {value : Int}
    (h : Number.unsigned text = some value) :
    (∀ c ∈ text, inNumber c) ∧ ∃ c rest, text = c :: rest ∧ isDigit c := by
  obtain ⟨base, digitText, hmarked⟩ := Number.exists_marked text
  rw [hmarked.unsigned_eq] at h
  obtain ⟨n, hn, -⟩ := Option.map_eq_some_iff.mp h
  obtain ⟨hdigits, -⟩ := Option.filter_eq_some_iff.mp hn
  have hall : ∀ c ∈ digitText, inNumber c := fun c hc =>
    inNumber_of_digitOf (Number.isSome_digitOf_of_digits hdigits c hc)
  cases hmarked with
  | @hexadecimal mark _ hm =>
      have hmark : inNumber mark := by rcases hm with rfl | rfl <;> decide
      exact ⟨List.forall_mem_cons.mpr ⟨by decide, List.forall_mem_cons.mpr ⟨hmark, hall⟩⟩,
        _, _, rfl, by decide⟩
  | octal => exact ⟨List.forall_mem_cons.mpr ⟨by decide, hall⟩, _, _, rfl, by decide⟩
  | decimal =>
      refine ⟨hall, ?_⟩
      cases text with
      | nil => simp [Number.digits] at hdigits
      | cons c rest =>
          obtain ⟨digit, hdigit, -⟩ := Option.bind_eq_some_iff.mp hdigits
          exact ⟨c, rest, rfl, isDigit_of_digitBelow hdigit⟩

theorem tokensOf_symbol {c : Char} (hc : isSymbol c) (rest : List Char) :
    tokensOf (c :: rest) = .symbol c :: tokensOf rest :=
  tokensOf_append (Lexes.nil.symbol hc) rest

-- What no number begins with is a word or a symbol.
theorem exists_tokensOf_cons {c : Char}
    (hc : isBlank c = false ∧ c ∉ [',', ';', '"', '\'', '[', '/'])
    (hd : isDigit c = false) (rest : List Char) :
    ∃ token more, tokensOf (c :: rest) = token :: more ∧
      (token = .symbol c ∨ ∃ name, token = .word name) := by
  obtain ⟨hblank, hsigns⟩ := hc
  simp only [List.mem_cons, List.not_mem_nil, or_false, not_or] at hsigns
  obtain ⟨-, -, hdouble, hsingle, -, hslash⟩ := hsigns
  by_cases hw : startsWord c
  · exact ⟨_, _, tokensOf_of_cut (cut_word hw rest), .inr ⟨_, rfl⟩⟩
  · have hsymbol : Cuts c rest ⟨[c], some (.symbol c)⟩ rest :=
      .symbol hblank (not_or.mpr ⟨hdouble, hsingle⟩) (by simpa using hw) hd
        fun he => absurd he hslash
    exact ⟨_, _, tokensOf_of_cut (cut_of_cuts hsymbol), .inl rfl⟩

theorem tokensOf_number {c : Char} {digits rest : List Char} (hc : isDigit c)
    (hd : ∀ d ∈ digits, inNumber d) (he : ∀ d ∈ rest.head?, inNumber d = false) :
    tokensOf (c :: digits ++ rest) = .number (String.ofList (c :: digits)) :: tokensOf rest :=
  tokensOf_of_cut (cut_of_cuts (.number hc hd he))

theorem exists_run (p : Char → Bool) (text : List Char) :
    ∃ front behind, text = front ++ behind ∧ (∀ c ∈ front, p c) ∧
      ∀ c ∈ behind.head?, p c = false :=
  ⟨text.takeWhile p, text.dropWhile p, List.takeWhile_append_dropWhile.symm,
    fun _ hc => List.mem_takeWhile_imp hc, head?_dropWhile p text⟩

theorem unsigned_eq_readLiteral {text : List Char} (h : ∀ c ∈ text, inNumber c) :
    Number.unsigned text = Number.readLiteral text := by
  have hnone : ¬ text.any Number.isSign := by
    rw [Bool.not_eq_true, List.any_eq_false]
    intro c hc
    simp [isSign_eq_false_of_inNumber (h c hc)]
  rw [Number.unsigned, if_neg hnone]

theorem run_cons_of_error {state : State} {token : Token}
    (h : ∃ fault, step state token.unplaced = .error fault) (rest : List Token) :
    (run state (token :: rest)).toOption = none := by
  obtain ⟨fault, hfault⟩ := h
  rw [run_cons, hfault]
  rfl

section

variable (block : OpenEnum) (name : ValueName)

theorem stepDigits_eq_error (negative : Bool) {token : Token}
    (h : ∀ text, token ≠ .number text) :
    ∃ fault, stepDigits block name negative token.unplaced = .error fault := by
  cases token with
  | number text => exact absurd rfl (h text)
  | _ => exact ⟨_, rfl⟩

-- Only a semicolon ends a number here.
theorem run_options_eq_none (value : Int) {c : Char}
    (hc : isBlank c = false ∧ c ∉ [',', ';', '"', '\'', '[', '/']) (hn : inNumber c = false)
    (rest : List Char) :
    (run (.options block name value) (tokensOf (c :: rest))).toOption = none := by
  have hdigit : isDigit c = false := by
    by_contra h
    simp [inNumber, h] at hn
  obtain ⟨token, more, htokens, hkind⟩ := exists_tokensOf_cons hc hdigit rest
  have hother : token ≠ .symbol '[' ∧ token ≠ .symbol ';' ∧ token.isComment = false := by
    rcases hkind with rfl | ⟨word, rfl⟩
    · have hsigns := hc.2
      simp only [List.mem_cons, List.not_mem_nil, or_false, not_or] at hsigns
      refine ⟨?_, ?_, rfl⟩
      · simpa using hsigns.2.2.2.2.1
      · simpa using hsigns.2.1
    · exact ⟨by simp, by simp, rfl⟩
  obtain ⟨hbracket, hend, hcomment⟩ := hother
  rw [htokens]
  refine run_cons_of_error ⟨.unexpected (.symbol ';') (some token) {}, ?_⟩ more
  simp only [step, stepSemicolon, stepSymbol, unexpected, if_neg hbracket, if_neg hend, hcomment]
  rfl

-- Where digits are looked for, a literal with no sign is read and nothing else is.
theorem run_unsigned {here : State} {negative : Bool} {text more : List Char}
    (hl : IsLiteralText text)
    (hs : ∀ token ∈ (tokensOf (text ++ ';' :: more)).head?,
      step here token.unplaced = stepDigits block name negative token.unplaced) :
    (run here (tokensOf (text ++ ';' :: more))).toOption
      = (Number.unsigned text).bind fun value =>
        (run (.options block name (if negative then -value else value))
          (tokensOf (';' :: more))).toOption := by
  have hfail {token : Token} {rest : List Token}
      (ht : tokensOf (text ++ ';' :: more) = token :: rest)
      (hn : ∀ digits, token ≠ .number digits) :
      (run here (tokensOf (text ++ ';' :: more))).toOption = none := by
    have hstep := stepDigits_eq_error block name negative hn
    rw [← hs token (by rw [ht]; rfl)] at hstep
    rw [ht]
    exact run_cons_of_error hstep rest
  cases text with
  | nil => exact hfail (tokensOf_symbol (by decide) more) (by simp)
  | cons c tail =>
      obtain ⟨hc, htail⟩ := List.forall_mem_cons.mp hl
      by_cases hdigit : isDigit c
      · obtain ⟨digits, left, rfl, hrun, hend⟩ := exists_run inNumber tail
        have hbehind : ∀ d ∈ (left ++ ';' :: more).head?, inNumber d = false := by
          cases left with
          | nil => simp; decide
          | cons d left => exact hend
        have htokens := tokensOf_number hdigit hrun hbehind
        rw [List.cons_append, ← List.append_assoc, ← List.cons_append] at htokens
        have hstep := hs _ (by rw [htokens]; rfl)
        rw [htokens, run_cons, hstep]
        simp only [stepDigits, Number.literal?, String.toList_ofList]
        cases left with
        | nil =>
            have hnumber : ∀ d ∈ c :: digits, inNumber d :=
              List.forall_mem_cons.mpr ⟨by simp [inNumber, hdigit], hrun⟩
            rw [List.append_nil, unsigned_eq_readLiteral hnumber]
            cases Number.readLiteral (c :: digits) <;> rfl
        | cons d left =>
            have hm : d ∈ c :: (digits ++ d :: left) := by simp
            have hother : inNumber d = false := hend d rfl
            have hnone : Number.unsigned (c :: (digits ++ d :: left)) = none := by
              by_contra hsome
              obtain ⟨value, hvalue⟩ := Option.ne_none_iff_exists'.mp hsome
              simp [(inNumber_of_unsigned hvalue).1 d hm] at hother
            rw [hnone]
            cases Number.readLiteral (c :: digits) with
            | none => rfl
            | some value => exact run_options_eq_none block name _ (hl d hm) hother _
      · have hnone : Number.unsigned (c :: tail) = none := by
          by_contra hsome
          obtain ⟨value, hvalue⟩ := Option.ne_none_iff_exists'.mp hsome
          obtain ⟨-, d, rest, he, hd⟩ := inNumber_of_unsigned hvalue
          exact hdigit ((List.cons.inj he).1 ▸ hd)
        obtain ⟨token, rest, htokens, hkind⟩ :=
          exists_tokensOf_cons hc (by simpa using hdigit) (tail ++ ';' :: more)
        rw [hnone]
        refine hfail htokens ?_
        rcases hkind with rfl | ⟨word, rfl⟩ <;> simp

theorem step_number_eq {token : Token} (hc : token.isComment = false)
    (hm : token ≠ .symbol '-') :
    step (.number block name) token.unplaced = stepDigits block name false token.unplaced := by
  simp [step, hc, hm]

theorem head_of_no_minus {text : List Char} (hl : IsLiteralText text) (hm : text.head? ≠ some '-')
    (more : List Char) : ∀ token ∈ (tokensOf (text ++ ';' :: more)).head?,
      token.isComment = false ∧ token ≠ .symbol '-' := by
  intro token ht
  cases text with
  | nil =>
      rw [List.nil_append, tokensOf_symbol (by decide)] at ht
      obtain rfl := Option.some.inj ht
      decide
  | cons c tail =>
      by_cases hd : isDigit c
      · rw [List.cons_append, tokensOf_of_cut (cut_number hd _)] at ht
        obtain rfl := Option.some.inj ht
        exact ⟨rfl, by simp⟩
      · obtain ⟨first, behind, htokens, hkind⟩ := exists_tokensOf_cons
          (hl c List.mem_cons_self) (by simpa using hd) (tail ++ ';' :: more)
        rw [List.cons_append, htokens] at ht
        obtain rfl := Option.some.inj ht
        rcases hkind with rfl | ⟨word, rfl⟩
        · exact ⟨rfl, fun he => hm (congrArg some (Token.symbol.inj he))⟩
        · exact ⟨rfl, by simp⟩

-- A minus sign is a token in front of the literal.
theorem run_literal {text : List Char} (hl : IsLiteralText text) (more : List Char) :
    (run (.number block name) (tokensOf (text ++ ';' :: more))).toOption
      = (Number.signFirst text).bind fun value =>
        (run (.options block name value) (tokensOf (';' :: more))).toOption := by
  by_cases hminus : text.head? = some '-'
  · obtain ⟨rest, rfl⟩ := List.head?_eq_some_iff.mp hminus
    have hbehind : ∀ token ∈ (tokensOf (rest ++ ';' :: more)).head?,
        step (.negative block name) token.unplaced
          = stepDigits block name true token.unplaced := fun _ _ => rfl
    have hrest := run_unsigned block name (List.forall_mem_cons.mp hl).2 hbehind
    rw [List.cons_append, tokensOf_symbol (by decide), Number.signFirst, Option.bind_map]
    exact hrest
  · have hbehind : ∀ token ∈ (tokensOf (text ++ ';' :: more)).head?,
        step (.number block name) token.unplaced
          = stepDigits block name false token.unplaced := by
      intro token ht
      obtain ⟨hcomment, hsymbol⟩ := head_of_no_minus hl hminus more token ht
      exact step_number_eq block name hcomment hsymbol
    rw [Number.signFirst_of_head hminus]
    exact run_unsigned block name hl hbehind

end

theorem IsPlainSource.append {first second : List Char} (hf : IsPlainSource first)
    (hs : IsPlainSource second) : IsPlainSource (first ++ second) :=
  List.forall_mem_append.mpr ⟨hf, hs⟩

theorem inWord_of_isIdentifier {name : List Char} (h : IsIdentifier name) :
    ∀ c ∈ name, inWord c := by
  cases name with
  | nil => exact h.elim
  | cons c rest =>
      obtain ⟨hc, hrest⟩ := h
      exact List.forall_mem_cons.mpr ⟨inWord_of_startsWord hc, List.all_eq_true.mp hrest⟩

-- A definition with one value
def definition (name literal : String) : String :=
  "enum E \x7b " ++ name ++ " = " ++ literal ++ "; \x7d"

def definedFile (name : String) (value : Int) : File where
  enums := [⟨"E", [], [⟨name, value, [], {}⟩], {}⟩]

theorem toList_definition (name literal : String) :
    (definition name literal).toList = "enum E \x7b ".toList ++ (name.toList ++ " = ".toList)
      ++ (literal.toList ++ "; \x7d".toList) := by
  simp [definition]

theorem isPlainSource_definition {name literal : String} (hn : IsIdentifier name.toList)
    (hl : IsLiteralText literal.toList) : IsPlainSource (definition name literal).toList := by
  have hopen : IsPlainSource "enum E \x7b ".toList := by decide
  have hequals : IsPlainSource " = ".toList := by decide
  have hclose : IsPlainSource "; \x7d".toList := by decide
  have hname : IsPlainSource name.toList := by
    intro c hc
    have hword := inWord_of_isIdentifier hn c hc
    refine ⟨?_, ?_, ?_⟩ <;> rintro rfl <;> exact absurd hword (by decide)
  have hliteral : IsPlainSource literal.toList := by
    intro c hc
    have hsigns := (hl c hc).2
    simp only [List.mem_cons, List.not_mem_nil, or_false, not_or] at hsigns
    obtain ⟨-, -, hdouble, hsingle, -, hslash⟩ := hsigns
    exact ⟨hslash, hdouble, hsingle⟩
  rw [toList_definition]
  exact ((hopen.append (hname.append hequals)).append (hliteral.append hclose))

-- What is open in front of the number of the one value
def openDefinition : OpenEnum :=
  { keyword := {}, name := "E", doc := [], brace := {}, scope := .file {} }

theorem lexes_beforeNumber {name : String} (hn : IsIdentifier name.toList) :
    Lexes ("enum E \x7b ".toList ++ (name.toList ++ " = ".toList))
      [.word "enum", .word "E", .symbol '\x7b', .word name, .symbol '='] := by
  have hopen : "enum E \x7b ".toList
      = "enum".toList ++ ' ' :: ("E".toList ++ [' ', '\x7b', ' ']) := by decide
  have hequals : " = ".toList = [' ', '=', ' '] := by decide
  have hvalue : Lexes (name.toList ++ [' ', '=', ' ']) [.word name, .symbol '='] := by
    have hrest : Lexes [' ', '=', ' '] [.symbol '='] :=
      (Lexes.symbol (by decide) (Lexes.nil.blank (by decide))).blank (by decide)
    simpa using Lexes.word hn (by decide) hrest
  have hbrace : Lexes [' ', '\x7b', ' '] [.symbol '\x7b'] :=
    (Lexes.symbol (by decide) (Lexes.nil.blank (by decide))).blank (by decide)
  have hshort : IsIdentifier "E".toList := by decide
  have hkeyword : IsIdentifier "enum".toList := by decide
  have htitle : Lexes (' ' :: ("E".toList ++ [' ', '\x7b', ' '])) [.word "E", .symbol '\x7b'] :=
    (Lexes.word hshort (by decide) hbrace).blank (by decide)
  have hopened := (Lexes.word hkeyword (by decide) htitle).append hvalue
  rw [hopen, hequals]
  exact hopened

theorem parse_definition {name literal : String} (hn : IsIdentifier name.toList)
    (hk : name ∉ ["option", "reserved"]) (hl : IsLiteralText literal.toList) :
    (parse (definition name literal)).toOption.map File.unplaced
      = (Number.signFirst literal.toList).map (definedFile name) := by
  have hread : run start [.word "enum", .word "E", .symbol '\x7b', .word name, .symbol '=']
      = .ok (.number openDefinition ⟨name, {}, []⟩) := by
    have hvalue : step (.value openDefinition []) (Token.word name).unplaced
        = .ok (.equals openDefinition ⟨name, {}, []⟩) := by
      simp only [step, stepValue, if_neg hk]
    have hbefore : run start [.word "enum", .word "E", .symbol '\x7b']
        = .ok (.value openDefinition []) := rfl
    have hsplit := run_append start [.word "enum", .word "E", .symbol '\x7b']
      [.word name, .symbol '=']
    rw [hbefore] at hsplit
    refine hsplit.trans ?_
    show run _ _ = _
    rw [run_cons, hvalue]
    rfl
  have hclosed (value : Int) :
      (run (.options openDefinition ⟨name, {}, []⟩ value) (tokensOf [';', ' ', '\x7d'])).toOption
        = some (.declaration (.file (definedFile name value)) []) := by
    have hend : Lexes [';', ' ', '\x7d'] [.symbol ';', .symbol '\x7d'] :=
      Lexes.symbol (by decide) ((Lexes.nil.symbol (by decide)).blank (by decide))
    have htokens := tokensOf_append hend []
    rw [List.append_nil, tokensOf_nil] at htokens
    rw [htokens]
    rfl
  have hclose : "; \x7d".toList = [';', ' ', '\x7d'] := by decide
  have hliteral := run_literal openDefinition ⟨name, {}, []⟩ hl [' ', '\x7d']
  simp only [hclosed] at hliteral
  rw [unplaced_parse (isPlainSource_definition hn hl), toList_definition,
    tokensOf_append (lexes_beforeNumber hn), run_append, hread, hclose]
  show (run _ _).toOption.bind State.file? = _
  rw [hliteral]
  cases Number.signFirst literal.toList <;> rfl

end Codebook.Proto
