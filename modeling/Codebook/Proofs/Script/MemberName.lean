import Codebook.Proofs.Proto.Lexing
import Codebook.Proofs.Text.CaseMap
import Codebook.Proofs.Text.Split
import Codebook.Proto.Lexer
import Codebook.Script.MemberName
import Mathlib.Data.List.Basic

namespace Codebook.Script

open Codebook.Text Codebook.Proto

theorem mem_of_mem_splitWords {before : Option Char} {text word : List Char} {x : Char}
    (hw : word ∈ splitWords before text) (hx : x ∈ word) : x ∈ text := by
  induction text generalizing before word with
  | nil => simp_all [splitWords]
  | cons c rest ih =>
      simp only [splitWords] at hw
      split at hw
      · rcases List.mem_cons.mp hw with rfl | hw
        · simp at hx
        · exact List.mem_cons_of_mem _ (ih hw hx)
      · split at hw
        · rw [List.mem_singleton] at hw
          subst hw
          exact List.mem_cons.mpr (.inl (List.mem_singleton.mp hx))
        · rename_i first more hwords
          rcases List.mem_cons.mp hw with rfl | hw
          · rcases List.mem_cons.mp hx with rfl | hx
            · simp
            · exact List.mem_cons_of_mem _ (ih (hwords ▸ List.mem_cons_self) hx)
          · exact List.mem_cons_of_mem _ (ih (hwords ▸ List.mem_cons_of_mem _ hw) hx)

theorem mem_of_mem_capitalize {word : List Char} {x : Char} (hx : x ∈ capitalize word)
    (hs : IsSign x) : x ∈ word := by
  cases word with
  | nil => simp [capitalize] at hx
  | cons c rest =>
      simp only [capitalize, List.mem_append] at hx
      rcases hx with hx | hx
      · exact List.mem_cons.mpr (.inl (eq_of_mem_toUpper hx hs))
      · exact List.mem_cons_of_mem _ (mem_of_mem_lowercase hx hs)

-- A member name has no sign that the name does not have.
theorem mem_of_mem_memberName {style : NameStyle} {name : String} {x : Char}
    (hx : x ∈ (memberName style name).toList) (hs : IsSign x) : x ∈ name.toList := by
  cases style with
  | raw => exact hx
  | pascal =>
      simp only [memberName, String.toList_ofList, pascalName] at hx
      split at hx
      · exact hx
      · obtain ⟨word, hword, hx⟩ := List.mem_flatMap.mp hx
        exact mem_of_mem_splitWords hword (mem_of_mem_capitalize hx hs)

def IsAscii (name : List Char) : Prop := ∀ c ∈ name, c.toNat < 0x80

instance : DecidablePred IsAscii := fun name => List.decidableBAll _ name

-- Letters, digits and underscores of ASCII
def IsIdentifierText (name : List Char) : Prop := ∀ c ∈ name, inWord c

theorem inRanges_of_lt {ranges : List (Nat × Nat)} {c : Char}
    (h : ∀ range ∈ ranges, c.toNat < range.1) : inRanges ranges c = false := by
  refine List.any_eq_false.mpr fun range hr => ?_
  have hlt := h range hr
  simp only [Bool.and_eq_true, decide_eq_true_eq, not_and]
  omega

theorem not_joins_of_ascii {c : Char} (hc : c.toNat < 0x80) :
    isPrepended c = false ∧ isExtending c = false := by
  have hprepended : ∀ range ∈ prependedRanges, 0x80 ≤ range.1 := by decide +kernel
  have hextending : ∀ range ∈ extendingRanges, 0x80 ≤ range.1 := by decide +kernel
  exact ⟨inRanges_of_lt fun range hr => Nat.lt_of_lt_of_le hc (hprepended range hr),
    inRanges_of_lt fun range hr => Nat.lt_of_lt_of_le hc (hextending range hr)⟩

theorem isSeparator_of_ascii {before : Option Char} {c : Char} {after : Option Char}
    (hb : ∀ b ∈ before, b.toNat < 0x80) (ha : ∀ a ∈ after, a.toNat < 0x80) :
    isSeparator before c after = (c == '_') := by
  have hbefore : before.any isPrepended = false := by
    cases before with
    | none => rfl
    | some b => exact (not_joins_of_ascii (hb b rfl)).1
  have hafter : after.any isExtending = false := by
    cases after with
    | none => rfl
    | some a => exact (not_joins_of_ascii (ha a rfl)).2
  simp [isSeparator, hbefore, hafter]

-- Without combining characters the words are what stands between the underscores.
theorem splitWords_eq_splitOn {before : Option Char} {name : List Char}
    (hb : ∀ b ∈ before, b.toNat < 0x80) (h : IsAscii name) :
    splitWords before name = splitOn '_' name := by
  induction name generalizing before with
  | nil => rfl
  | cons c rest ih =>
      obtain ⟨hc, hrest⟩ := List.forall_mem_cons.mp h
      have hwords := @ih (some c) (by simpa using hc) hrest
      have hnext : ∀ a ∈ rest.head?, a.toNat < 0x80 := fun a ha => hrest a (List.mem_of_head? ha)
      cases hs : splitOn '_' rest with
      | nil => exact absurd hs (splitOn_ne_nil _ _)
      | cons word more => simp [splitWords, splitOn, isSeparator_of_ascii hb hnext, hwords, hs]

theorem toUpper_of_ascii {c : Char} (h : c.toNat < 0x80) : toUpper c = [c.toUpper] := by
  simp [toUpper, h]

theorem lowercase_of_ascii {before text : List Char} (h : IsAscii text) :
    lowerBehind before text = text.map Char.toLower := by
  induction text generalizing before with
  | nil => rfl
  | cons c rest ih =>
      obtain ⟨hc, hrest⟩ := List.forall_mem_cons.mp h
      have hlower : toLower c = [c.toLower] := by simp [toLower, hc]
      have hsigma : c ≠ 'Σ' := by
        rintro rfl
        exact absurd hc (by decide)
      simp [lowerBehind, hsigma, hlower, ih hrest]

-- The letters and digits of a name, each with whether it is a letter that begins a word.
-- `begins` tells that the next one stands at the beginning of the name or behind an underscore.
def wordLetters (begins : Bool) : List Char → List (Char × Bool)
  | [] => []
  | c :: rest =>
    if c = '_' then wordLetters true rest else (c, begins && isLetter c) :: wordLetters false rest

def writeLetter (letter : Char × Bool) : Char :=
  if letter.2 then letter.1 else letter.1.toLower

-- Capitals and digits, the characters of a name in capitals apart from underscores
def isCapital (c : Char) : Bool := inWord c && !isAsciiLower c && c != '_'

-- The letter that a character of a member name was written for
def readLetter (c : Char) : Char × Bool :=
  if isAsciiLower c then (c.toUpper, false) else (c, isLetter c)

theorem inWord_of_isCapital {c : Char} (h : isCapital c) : inWord c := by
  simp only [isCapital, Bool.and_eq_true] at h
  exact h.1.1

theorem readLetter_of_isCapital {c : Char} (h : isCapital c) :
    c.toUpper = c ∧ (isLetter c → readLetter c = (c, true)) ∧
      readLetter c.toLower = (c, false) := by
  refine forall_ascii (p := fun c => isCapital c → c.toUpper = c ∧
    (isLetter c → readLetter c = (c, true)) ∧ readLetter c.toLower = (c, false)) ?_
    (toNat_lt_of_inWord (inWord_of_isCapital h)) h
  decide +kernel

-- A name of ASCII characters without a small letter, which is converted
def IsConverted (name : List Char) : Prop := ∀ c ∈ name, c.toNat < 0x80 ∧ isAsciiLower c = false

theorem IsConverted.ascii {name : List Char} (h : IsConverted name) : IsAscii name :=
  fun c hc => (h c hc).1

theorem toUpper_of_converted {c : Char} (hc : c.toNat < 0x80) (hl : isAsciiLower c = false) :
    c.toUpper = c ∧ writeLetter (c, isLetter c) = c := by
  refine forall_ascii (p := fun c => isAsciiLower c = false →
    c.toUpper = c ∧ writeLetter (c, isLetter c) = c) ?_ hc hl
  decide +kernel

-- A name in capitals, with underscores between its words
def IsScreaming (name : List Char) : Prop := ∀ c ∈ name, c = '_' ∨ isCapital c

theorem IsScreaming.converted {name : List Char} (h : IsScreaming name) : IsConverted name := by
  intro c hc
  rcases h c hc with rfl | hc
  · decide
  · have hsmall := hc
    simp only [isCapital, Bool.and_eq_true, Bool.not_eq_true'] at hsmall
    exact ⟨toNat_lt_of_inWord (inWord_of_isCapital hc), hsmall.1.2⟩

theorem isScreaming_of_identifier {name : List Char} (h : IsIdentifierText name)
    (hlower : name.any isAsciiLower = false) : IsScreaming name := by
  intro c hc
  by_cases hu : c = '_'
  · exact .inl hu
  · have hl := List.any_eq_false.mp hlower c hc
    exact .inr (by simp [isCapital, h c hc, hl, hu])

theorem mem_wordLetters {begins : Bool} {name : List Char} (h : IsScreaming name)
    {letter : Char × Bool} (hl : letter ∈ wordLetters begins name) :
    isCapital letter.1 ∧ (letter.2 → isLetter letter.1) := by
  induction name generalizing begins with
  | nil => simp [wordLetters] at hl
  | cons c rest ih =>
      have hrest : IsScreaming rest := fun d hd => h d (List.mem_cons_of_mem _ hd)
      simp only [wordLetters] at hl
      split at hl
      · exact ih hrest hl
      · rename_i hu
        rcases List.mem_cons.mp hl with rfl | hl
        · exact ⟨(h c (by simp)).resolve_left hu, fun hb => (Bool.and_eq_true _ _ ▸ hb).2⟩
        · exact ih hrest hl

theorem readLetter_writeLetter {letter : Char × Bool} (hc : isCapital letter.1)
    (hl : letter.2 → isLetter letter.1) : readLetter (writeLetter letter) = letter := by
  obtain ⟨c, begins⟩ := letter
  obtain ⟨-, hcapital, hsmall⟩ := readLetter_of_isCapital hc
  cases begins with
  | true => exact hcapital (hl rfl)
  | false => exact hsmall

-- What is written for the letters of a name in capitals can be read back.
theorem map_writeLetter_inj {a b : List Char} (ha : IsScreaming a) (hb : IsScreaming b) :
    (wordLetters true a).map writeLetter = (wordLetters true b).map writeLetter ↔
      wordLetters true a = wordLetters true b := by
  have hread {name : List Char} (h : IsScreaming name) :
      ((wordLetters true name).map writeLetter).map readLetter = wordLetters true name := by
    rw [List.map_map]
    refine (List.map_congr_left fun letter hl => ?_).trans (List.map_id _)
    obtain ⟨hc, hl⟩ := mem_wordLetters h hl
    exact readLetter_writeLetter hc hl
  constructor
  · intro he
    rw [← hread ha, ← hread hb, he]
  · intro he
    rw [he]

theorem capitalize_cons {c : Char} {rest : List Char} (h : IsConverted (c :: rest)) :
    capitalize (c :: rest) = c :: rest.map Char.toLower := by
  obtain ⟨⟨hc, hl⟩, hrest⟩ := List.forall_mem_cons.mp h
  rw [capitalize, toUpper_of_ascii hc, (toUpper_of_converted hc hl).1, lowercase,
    lowercase_of_ascii (IsConverted.ascii hrest)]
  rfl

-- The words behind the first one begin with a capital. The first one does so if it begins the
-- name.
theorem flatMap_capitalize_splitOn {name first : List Char} {more : List (List Char)}
    (h : IsConverted name) (hs : splitOn '_' name = first :: more) :
    first.map Char.toLower ++ more.flatMap capitalize
        = (wordLetters false name).map writeLetter ∧
      capitalize first ++ more.flatMap capitalize = (wordLetters true name).map writeLetter := by
  induction name generalizing first more with
  | nil =>
      simp only [splitOn, List.cons.injEq] at hs
      obtain ⟨rfl, rfl⟩ := hs
      simp [capitalize, wordLetters]
  | cons c rest ih =>
      obtain ⟨hc, hrest⟩ := List.forall_mem_cons.mp h
      cases hwords : splitOn '_' rest with
      | nil => exact absurd hwords (splitOn_ne_nil _ _)
      | cons word words =>
          obtain ⟨hbehind, hbegin⟩ := ih hrest hwords
          by_cases hu : c = '_'
          · simp only [splitOn, hu, if_true, hwords, List.cons.injEq] at hs
            obtain ⟨rfl, rfl⟩ := hs
            have hempty : capitalize [] = [] := rfl
            simp [hempty, wordLetters, hu, hbegin]
          · simp only [splitOn, hu, if_false, hwords, List.cons.injEq] at hs
            obtain ⟨rfl, rfl⟩ := hs
            have hword : IsConverted (c :: word) := List.forall_mem_cons.mpr
              ⟨hc, fun d hd => hrest d (mem_of_mem_splitOn (hwords ▸ List.mem_cons_self) hd)⟩
            rw [capitalize_cons hword]
            simp only [wordLetters, hu, if_false, Bool.false_and, Bool.true_and, List.map_cons,
              List.cons_append, hbehind, (toUpper_of_converted hc.1 hc.2).2]
            exact ⟨rfl, trivial⟩

theorem pascalName_of_converted {name : List Char} (h : IsConverted name) :
    pascalName name = (wordLetters true name).map writeLetter := by
  have hsmall : name.any isAsciiLower = false :=
    List.any_eq_false.mpr fun c hc => by simp [(h c hc).2]
  have hwords : splitWords none name = splitOn '_' name := splitWords_eq_splitOn (by simp) h.ascii
  simp only [pascalName, hsmall, Bool.false_eq_true, if_false, hwords]
  cases hs : splitOn '_' name with
  | nil => exact absurd hs (splitOn_ne_nil _ _)
  | cons first more => exact (flatMap_capitalize_splitOn h hs).2

-- Two identifiers stand for one member. A name with a small letter is kept, so only the
-- converted form of another one can be equal to it. Two names in capitals have to agree in their
-- letters and digits and in which letters begin a word.
def Clash (a b : List Char) : Prop :=
  if a.any isAsciiLower then
    if b.any isAsciiLower then a = b else a = (wordLetters true b).map writeLetter
  else
    if b.any isAsciiLower then (wordLetters true a).map writeLetter = b
    else wordLetters true a = wordLetters true b

theorem pascalName_eq_iff_clash {a b : List Char} (ha : IsIdentifierText a)
    (hb : IsIdentifierText b) : pascalName a = pascalName b ↔ Clash a b := by
  have hkept {name : List Char} (h : name.any isAsciiLower) : pascalName name = name := by
    simp [pascalName, h]
  unfold Clash
  by_cases hla : a.any isAsciiLower
  · by_cases hlb : b.any isAsciiLower
    · rw [if_pos hla, if_pos hlb, hkept hla, hkept hlb]
    · have hsb := isScreaming_of_identifier hb (Bool.not_eq_true _ ▸ hlb)
      rw [if_pos hla, if_neg hlb, hkept hla, pascalName_of_converted hsb.converted]
  · have hsa := isScreaming_of_identifier ha (Bool.not_eq_true _ ▸ hla)
    by_cases hlb : b.any isAsciiLower
    · rw [if_neg hla, if_pos hlb, hkept hlb, pascalName_of_converted hsa.converted]
    · have hsb := isScreaming_of_identifier hb (Bool.not_eq_true _ ▸ hlb)
      rw [if_neg hla, if_neg hlb, pascalName_of_converted hsa.converted,
        pascalName_of_converted hsb.converted, map_writeLetter_inj hsa hsb]

end Codebook.Script
