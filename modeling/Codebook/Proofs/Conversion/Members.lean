import Codebook.Proofs.Conversion

namespace Codebook

open Declarations Script

-- Whether every constant has a member of its own. The names of the constants are distinct, but
-- two of them may be converted into one member.

theorem membersOf_nodup_iff {style : NameStyle} {names : List String} (hn : names.Nodup) :
    (membersOf style names).Nodup ↔
      (style = .pascal → ∀ a ∈ names, ∀ b ∈ names,
        pascalName a.toList = pascalName b.toList → a = b) := by
  rw [membersOf, List.nodup_map_iff_inj_on hn]
  cases style with
  | raw =>
      constructor
      · intro _ hp
        cases hp
      · intro _ a _ b _ h
        exact h
  | pascal => simp [memberName, String.ofList_inj]

theorem definitions_generatedOf {settings : Settings} {protos : List Proto.File}
    {entries : List Entry} (hp : Proto.AreParsed protos)
    (he : ∀ entry ∈ entries, entry.WellFormed) :
    (readingOfCode settings (generatedOf settings protos entries)).definitions.map Prod.fst
      = (membersOf settings.names
        ((modelOf settings protos entries).constants.map (·.name))).map String.toList := by
  rw [readingOfCode_generatedOf, definitions_classPage (isPlain_style settings)
    (isPlain_modelOf hp he), membersOf, List.map_map, List.map_map, List.map_map]
  rfl

-- The definitions of a class define distinct members exactly when no two names of constants are
-- converted into one member. For identifiers this is so when they do not clash.
theorem members_distinct_iff {settings : Settings} {document : Document}
    {protos : List Proto.File} {generated : Generated} (hp : Proto.AreParsed protos)
    (h : compile settings document protos = .ok generated) :
    let names := generated.constants.map (·.name)
    names.Nodup ∧
      (readingOfCode settings generated).definitions.map Prod.fst
        = (membersOf settings.names names).map String.toList ∧
      ((membersOf settings.names names).Nodup ↔
        (settings.names = .pascal → ∀ a ∈ names, ∀ b ∈ names,
          pascalName a.toList = pascalName b.toList → a = b)) ∧
      ∀ a ∈ names, ∀ b ∈ names, IsIdentifierText a.toList → IsIdentifierText b.toList →
        (pascalName a.toList = pascalName b.toList ↔ Clash a.toList b.toList) := by
  obtain ⟨entries, hentries, -, rfl⟩ := compile_eq_ok.mp h
  have he := wellFormed_of_readDeclarations hentries
  have hnames := names_nodup_constantsOf (valueDocs (definition? settings protos)) entries
  refine ⟨hnames, definitions_generatedOf hp he, membersOf_nodup_iff hnames, ?_⟩
  intro a _ b _ ha hb
  exact pascalName_eq_iff_clash ha hb

-- Two names that differ in the case of a letter only
def nearNames : Document := ⟨"proto.d.ts", "enum ResponseCodeEnum \x7b\nOK = 0,\nOk = 1\n\x7d"⟩

theorem readDeclarations_nearNames :
    readDeclarations {} nearNames = .ok [⟨"OK", "0", 0, ⟨⟨24, 1, 0⟩, ⟨31, 1, 7⟩⟩⟩,
      ⟨"Ok", "1", 1, ⟨⟨32, 2, 0⟩, ⟨38, 2, 6⟩⟩⟩] := by
  rfl

theorem members_meet_for_near_names :
    ∃ generated, compile {} nearNames [emptySource] = .ok generated ∧
      ¬ (membersOf .pascal (generated.constants.map (·.name))).Nodup := by
  have hcompile : compile {} nearNames [emptySource] = .ok (generatedOf {} [emptySource] _) :=
    compile_eq_ok.mpr ⟨_, readDeclarations_nearNames,
      fun _ column => by cases column <;> decide, rfl⟩
  refine ⟨_, hcompile, ?_⟩
  obtain ⟨-, -, hiff, -⟩ := members_distinct_iff areParsed_emptySource hcompile
  intro hn
  have hsame : pascalName "OK".toList = pascalName "Ok".toList := by decide +kernel
  exact absurd (hiff.mp hn rfl "OK" (by decide) "Ok" (by decide) hsame) (by decide)

end Codebook
