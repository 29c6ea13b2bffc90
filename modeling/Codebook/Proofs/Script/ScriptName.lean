import Codebook.Proofs.Script.MemberName

namespace Codebook.Script

open Codebook.Text Codebook.Proto

-- Which members are names of the script that is written: letters, digits, underscores and dollar
-- signs, of which the first is no digit.

def inScriptName (c : Char) : Bool := inWord c || c == '$'

def IsScriptName : List Char → Prop
  | [] => False
  | c :: rest => isDigit c = false ∧ ∀ d ∈ c :: rest, inScriptName d

instance : DecidablePred IsScriptName
  | [] => inferInstanceAs (Decidable False)
  | c :: rest =>
    have : Decidable (∀ d ∈ c :: rest, inScriptName d) := List.decidableBAll _ (c :: rest)
    inferInstanceAs (Decidable (isDigit c = false ∧ ∀ d ∈ c :: rest, inScriptName d))

theorem isScriptName_map_congr {α : Type} {f g : α → Char} {items : List α}
    (h : ∀ item ∈ items, inScriptName (f item) = inScriptName (g item) ∧
      isDigit (f item) = isDigit (g item)) :
    IsScriptName (items.map f) ↔ IsScriptName (items.map g) := by
  have hall : (∀ c ∈ items.map f, inScriptName c) ↔ ∀ c ∈ items.map g, inScriptName c := by
    rw [List.forall_mem_map, List.forall_mem_map]
    exact forall₂_congr fun item hm => by rw [(h item hm).1]
  cases items with
  | nil => exact Iff.rfl
  | cons item rest => exact and_congr (by rw [(h item List.mem_cons_self).2]) hall

theorem map_fst_wordLetters (begins : Bool) (name : List Char) :
    (wordLetters begins name).map Prod.fst = name.filter (· != '_') := by
  induction name generalizing begins with
  | nil => rfl
  | cons c rest ih =>
      by_cases hu : c = '_'
      · simp [wordLetters, hu, ih]
      · simp [wordLetters, hu, ih]

-- A letter is written as a letter.
theorem writeLetter_kept {c : Char} (hc : c.toNat < 0x80) (begins : Bool) :
    inScriptName (writeLetter (c, begins)) = inScriptName c ∧
      isDigit (writeLetter (c, begins)) = isDigit c := by
  refine forall_ascii (p := fun c => inScriptName (writeLetter (c, begins)) = inScriptName c ∧
    isDigit (writeLetter (c, begins)) = isDigit c) ?_ hc
  cases begins <;> decide +kernel

-- A name without what its member leaves out
def memberPart (style : NameStyle) (name : List Char) : List Char :=
  if style = .pascal ∧ ¬ name.any isAsciiLower then name.filter (· != '_') else name

-- A member is a name of the script when what it has from its name is one. A name in capitals
-- loses its underscores, and its member may begin with a digit or have no character.
theorem isScriptName_memberName_iff {style : NameStyle} {name : String} (h : IsAscii name.toList) :
    IsScriptName (memberName style name).toList ↔ IsScriptName (memberPart style name.toList) := by
  cases style with
  | raw => exact Iff.rfl
  | pascal =>
      by_cases hsmall : name.toList.any isAsciiLower
      · simp [memberName, memberPart, pascalName, hsmall]
      · have hconverted : IsConverted name.toList := fun c hc =>
          ⟨h c hc, by simpa using List.any_eq_false.mp (Bool.eq_false_iff.mpr hsmall) c hc⟩
        have hletters : ∀ letter ∈ wordLetters true name.toList,
            inScriptName (writeLetter letter) = inScriptName letter.1 ∧
              isDigit (writeLetter letter) = isDigit letter.1 := by
          intro letter hl
          have hname : letter.1 ∈ name.toList.filter (· != '_') :=
            map_fst_wordLetters true name.toList ▸ List.mem_map_of_mem hl
          exact writeLetter_kept (h _ (List.mem_of_mem_filter hname)) letter.2
        rw [memberName, String.toList_ofList, pascalName_of_converted hconverted, memberPart,
          if_pos ⟨rfl, hsmall⟩, isScriptName_map_congr hletters, map_fst_wordLetters]

end Codebook.Script
