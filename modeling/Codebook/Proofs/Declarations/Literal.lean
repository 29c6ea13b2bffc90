import Codebook.Proofs.Declarations.Entry
import Codebook.Proofs.Proto.Literal
import Codebook.Proofs.Result

namespace Codebook

open Codebook.Text

-- Codes are written in the lines of a declaration and in definitions. The two readers take a
-- literal for the same value unless its sign is in the way.

namespace Declarations

-- The line that declares a name with a code
def declaration (name literal : String) : String := name ++ " = " ++ literal ++ ";"

theorem readEntry_declaration {name literal : String} (hn : Proto.IsIdentifier name.toList)
    (hl : ∀ c ∈ literal.toList, isBlank c = false) (span : Span) :
    (readEntry ⟨declaration name literal, span⟩).toOption
      = (Number.readLiteral literal.toList).map
          fun number => some ⟨name, literal, number, span⟩ := by
  have htext : (declaration name literal).toList
      = name.toList ++ ' ' :: '=' :: ' ' :: (literal.toList ++ [';']) := by
    simp [declaration]
  have hword : ∀ c ∈ name.toList, isBlank c = false ∧ c ≠ '/' ∧ c ≠ '*' ∧ c ≠ '\n' :=
    fun c hc => Proto.no_sign_of_inWord (Proto.inWord_of_isIdentifier hn c hc)
  have hne : name.toList ≠ [] := by
    intro hnil
    rw [hnil] at hn
    exact hn
  have hcomment : beginsComment name.toList = false := by
    obtain ⟨c, rest, hname⟩ := List.exists_cons_of_ne_nil hne
    obtain ⟨-, hslash, hstar, -⟩ := hword c (by simp [hname])
    simp [hname, beginsComment, hslash, hstar]
  have hcode : ∀ c ∈ literal.toList ++ [';'], isBlank c = false :=
    List.forall_mem_append.mpr ⟨hl, List.forall_mem_singleton.mpr (by decide)⟩
  have hread := readEntry_assignment hne (fun c hc => (hword c hc).1) (by simp) hcode hcomment span
  rwa [← htext, String.ofList_toList, withoutDelimiter_semicolon, String.ofList_toList,
    String.ofList_toList] at hread

end Declarations

-- The line of a declaration gives the name the value.
def Declares (span : Span) (name literal : String) (value : Int) : Prop :=
  ∃ entry, Declarations.readEntry ⟨Declarations.declaration name literal, span⟩ = .ok (some entry) ∧
    entry.name = name ∧ entry.number = value

-- The definition is read, and its only value is the name with the value.
def Defines (name literal : String) (value : Int) : Prop :=
  ∃ file enumeration defined, Proto.parse (Proto.definition name literal) = .ok file ∧
    file.messages = [] ∧ file.enums = [enumeration] ∧ enumeration.values = [defined] ∧
    defined.name = name ∧ defined.number = value

section

variable {name literal : String} {value : Int}

theorem declares_iff (hn : Proto.IsIdentifier name.toList)
    (hl : ∀ c ∈ literal.toList, isBlank c = false) (span : Span) :
    Declares span name literal value ↔ Number.readLiteral literal.toList = some value := by
  have hread := Declarations.readEntry_declaration hn hl span
  constructor
  · rintro ⟨entry, hentry, -, rfl⟩
    rw [hentry] at hread
    obtain ⟨number, hnumber, he⟩ := Option.map_eq_some_iff.mp hread.symm
    rw [hnumber, ← Option.some.inj he]
  · intro hvalue
    rw [hvalue] at hread
    exact ⟨_, toOption_eq_some.mp hread, rfl, rfl⟩

theorem defines_iff (hn : Proto.IsIdentifier name.toList) (hk : name ∉ ["option", "reserved"])
    (hl : Proto.IsLiteralText literal.toList) :
    Defines name literal value ↔ Number.signFirst literal.toList = some value := by
  have hread := Proto.parse_definition hn hk hl
  constructor
  · rintro ⟨file, enumeration, defined, hparse, -, henums, hvalues, -, rfl⟩
    rw [hparse] at hread
    obtain ⟨number, hnumber, hfile⟩ := Option.map_eq_some_iff.mp hread.symm
    have hread := congrArg Proto.File.enums hfile
    simp only [Proto.definedFile, Proto.File.unplaced, henums, List.map_cons, List.map_nil,
      Proto.Enumeration.unplaced, hvalues, Proto.EnumValue.unplaced, List.cons.injEq,
      Proto.Enumeration.mk.injEq, Proto.EnumValue.mk.injEq] at hread
    rw [hnumber, hread.1.2.2.1.1.2.1]
  · intro hvalue
    rw [hvalue] at hread
    obtain ⟨file, hparse, hfile⟩ := Option.map_eq_some_iff.mp hread
    have hmessages : file.messages = [] :=
      List.map_eq_nil_iff.mp (congrArg Proto.File.messages hfile)
    obtain ⟨enumeration, henums, henumeration⟩ :=
      List.map_eq_singleton_iff.mp (congrArg Proto.File.enums hfile)
    obtain ⟨defined, hvalues, hdefined⟩ :=
      List.map_eq_singleton_iff.mp (congrArg Proto.Enumeration.values henumeration)
    exact ⟨file, enumeration, defined, toOption_eq_some.mp hparse, hmessages, henums, hvalues,
      congrArg Proto.EnumValue.name hdefined, congrArg Proto.EnumValue.number hdefined⟩

-- A declaration and a definition with one literal give its name the same value, or both give it
-- none, unless the two ways of reading a sign part on it.
theorem literals_agree_iff (hn : Proto.IsIdentifier name.toList)
    (hk : name ∉ ["option", "reserved"]) (hl : Proto.IsLiteralText literal.toList) (span : Span) :
    (∀ value, Declares span name literal value ↔ Defines name literal value) ↔
      ¬ Number.Parted literal.toList := by
  rw [← Number.readLiteral_eq_signFirst_iff]
  simp only [declares_iff hn (fun c hc => (hl c hc).1) span, defines_iff hn hk hl]
  exact Option.ext_iff.symm

end

-- Both read a minus sign in front of a plain numeral. A leading zero is no base mark for the
-- declaration when a sign stands in front of it.
theorem literals_part_behind_sign :
    Number.Parted "-010".toList ∧ ¬ Number.Parted "-10".toList ∧
      ¬ (∀ value, Declares {} "A" "-010" value ↔ Defines "A" "-010" value) ∧
      ∀ value, Declares {} "A" "-10" value ↔ Defines "A" "-10" value := by
  have hn : Proto.IsIdentifier "A".toList := by decide
  have hk : "A" ∉ ["option", "reserved"] := by decide
  have hoctal : Proto.IsLiteralText "-010".toList := by decide
  have hdecimal : Proto.IsLiteralText "-10".toList := by decide
  have hparted : Number.Parted "-010".toList :=
    .octal (by decide) (by decide) (by decide +kernel)
  have hsame : ¬ Number.Parted "-10".toList := by
    rw [← Number.readLiteral_eq_signFirst_iff]
    decide +kernel
  refine ⟨hparted, hsame, fun h => ?_, (literals_agree_iff hn hk hdecimal {}).mpr hsame⟩
  exact (literals_agree_iff hn hk hoctal {}).mp h hparted

end Codebook
