import Codebook.Proofs.Conversion
import Codebook.Proofs.Script.Reading.Names
import Codebook.Proofs.Script.ScriptName

namespace Codebook

open Declarations Script

-- Whether the names in a class can be read as names and texts of the script. A name of the
-- declarations is any field without blanks, and it is written as it is.

theorem forall_toName_iff (settings : Settings) (protos : List Proto.File) (entries : List Entry)
    {P : String → Prop} :
    (∀ pair ∈ (modelOf settings protos entries).toName.names.pairs, P pair.2) ↔
      ∀ entry ∈ entries, P entry.name := by
  constructor
  · intro h entry hm
    have hkeys : entry.name ∈ keys .name entries := List.mem_map_of_mem hm
    obtain ⟨last, hl, hkey⟩ := exists_isLast hkeys
    have hpair : (entry.name, last.name) ∈ (modelOf settings protos entries).toName.names.pairs :=
      (Table.mem_pairs_lastWins .name entries _ _).mpr ⟨last, hl, hkey, rfl⟩
    have hname : last.name = entry.name := hkey
    exact hname ▸ h _ hpair
  · intro h
    exact (forall_names_modelOf settings protos h).1

section

variable {settings : Settings} {protos : List Proto.File} {entries : List Entry}
  (hp : Proto.AreParsed protos) (he : ∀ entry ∈ entries, entry.WellFormed)

include hp he

theorem forall_members_generatedOf {P : List Char → Prop} :
    (∀ member ∈ (readingOfCode settings (generatedOf settings protos entries)).members, P member) ↔
      ∀ entry ∈ entries, P (memberName settings.names entry.name).toList := by
  rw [readingOfCode_generatedOf, members_classPage (isPlain_style settings) (isPlain_modelOf hp he),
    List.forall_mem_append, List.forall_mem_append, List.forall_mem_map, List.forall_mem_map,
    List.forall_mem_map]
  constructor
  · rintro ⟨hnamed, -⟩
    exact (forall_toName_iff settings protos entries
      (P := fun name => P (memberName settings.names name).toList)).mp hnamed
  · intro h
    exact forall_names_modelOf settings protos
      (P := fun name => P (memberName settings.names name).toList) h

theorem forall_quoted_generatedOf {P : List Char → Prop} :
    (∀ text ∈ (readingOfCode settings (generatedOf settings protos entries)).quoted, P text) ↔
      ∀ entry ∈ entries, P entry.name.toList := by
  rw [readingOfCode_generatedOf, quoted_classPage (isPlain_style settings) (isPlain_modelOf hp he),
    List.forall_mem_map]
  exact forall_toName_iff settings protos entries (P := fun name => P name.toList)

end

-- All members of a class are names of the script exactly when the names of the declarations are
-- converted into such names, and all texts in quotes end at their quotes exactly when no name has a
-- quote or a backslash. For a name of ASCII characters it shows without the conversion.
theorem names_readable_iff {settings : Settings} {document : Document}
    {protos : List Proto.File} {generated : Generated} (hp : Proto.AreParsed protos)
    (h : compile settings document protos = .ok generated) :
    ∃ entries, readDeclarations settings document = .ok entries ∧
      ((∀ member ∈ (readingOfCode settings generated).members, IsScriptName member) ↔
        ∀ entry ∈ entries, IsScriptName (memberName settings.names entry.name).toList) ∧
      ((∀ text ∈ (readingOfCode settings generated).quoted, '"' ∉ text ∧ '\\' ∉ text) ↔
        ∀ entry ∈ entries, '"' ∉ entry.name.toList ∧ '\\' ∉ entry.name.toList) ∧
      ∀ entry ∈ entries, IsAscii entry.name.toList →
        (IsScriptName (memberName settings.names entry.name).toList ↔
          IsScriptName (memberPart settings.names entry.name.toList)) := by
  obtain ⟨entries, hentries, -, rfl⟩ := compile_eq_ok.mp h
  have he := wellFormed_of_readDeclarations hentries
  exact ⟨entries, hentries, forall_members_generatedOf hp he, forall_quoted_generatedOf hp he,
    fun _ _ hascii => isScriptName_memberName_iff hascii⟩

-- A name in quotes of its own
def quotedName : Document := ⟨"proto.d.ts", "enum ResponseCodeEnum \x7b\n\"NOT-OK\" = 1,\n\x7d"⟩

theorem readDeclarations_quotedName :
    readDeclarations {} quotedName = .ok [⟨"\"NOT-OK\"", "1", 1, ⟨⟨24, 1, 0⟩, ⟨37, 1, 13⟩⟩⟩] := by
  rfl

theorem names_unreadable_for_quoted_name :
    ∃ generated, compile {} quotedName [emptySource] = .ok generated ∧
      ¬ (∀ member ∈ (readingOfCode {} generated).members, IsScriptName member) ∧
      ¬ ∀ text ∈ (readingOfCode {} generated).quoted, '"' ∉ text ∧ '\\' ∉ text := by
  have hcompile : compile {} quotedName [emptySource] = .ok (generatedOf {} [emptySource] _) :=
    compile_eq_ok.mpr ⟨_, readDeclarations_quotedName,
      fun _ column => by cases column <;> decide, rfl⟩
  refine ⟨_, hcompile, ?_⟩
  obtain ⟨entries, hentries, hmembers, hquoted, hascii⟩ :=
    names_readable_iff areParsed_emptySource hcompile
  obtain rfl := Except.ok.inj (hentries.symm.trans readDeclarations_quotedName)
  constructor
  · rw [hmembers]
    intro hall
    have hname := (hascii _ List.mem_cons_self (by decide)).mp (hall _ List.mem_cons_self)
    exact absurd hname (by decide)
  · rw [hquoted]
    intro hall
    exact absurd (hall _ List.mem_cons_self).1 (by decide)

end Codebook
