import Codebook.Generated
import Codebook.Proofs.Declarations.Entry
import Codebook.Proofs.Declarations.Table
import Codebook.Proofs.Result

namespace Codebook

open Declarations Script

-- What is generated from the entries of the declarations, however duplicates are treated.
def modelOf (settings : Settings) (protos : List Proto.File) (entries : List Entry) :
    ClassModel where
  toName := Table.lastWins .name entries
  fromCode := Table.lastWins .code entries
  constants := constantsOf (valueDocs (definition? settings protos)) entries

def generatedOf (settings : Settings) (protos : List Proto.File) (entries : List Entry) :
    Generated :=
  let model := modelOf settings protos entries
  { page := classPage settings.style model
    output := settings.output
    className := settings.target.className
    protoFiles := protos.length
    constants := model.constants
    documented := model.constants.countP fun constant => !constant.doc.isEmpty
    drift := (definition? settings protos).map (driftOf model.constants) }

-- Entries that a treatment of duplicates lets pass
def Passes (duplicates : Duplicates) (entries : List Entry) : Prop :=
  duplicates = .reject → ∀ column, (keys column entries).Nodup

theorem compile_eq_ok {settings : Settings} {document : Document} {protos : List Proto.File}
    {generated : Generated} :
    compile settings document protos = .ok generated ↔
      ∃ entries, readDeclarations settings document = .ok entries ∧
        Passes settings.duplicates entries ∧ generated = generatedOf settings protos entries := by
  unfold compile
  simp only [bind_eq_ok, mapError_eq_ok, Table.ofEntries_eq_ok]
  constructor
  · rintro ⟨entries, hentries, toName, ⟨hn, rfl⟩, fromCode, ⟨hc, rfl⟩, h⟩
    refine ⟨entries, hentries, fun hr column => ?_, (Except.ok.inj h).symm⟩
    cases column with
    | name => exact hn hr
    | code => exact hc hr
  · rintro ⟨entries, hentries, hp, rfl⟩
    exact ⟨entries, hentries, _, ⟨fun hr => hp hr .name, rfl⟩, _, ⟨fun hr => hp hr .code, rfl⟩, rfl⟩

theorem wellFormed_of_readDeclarations {settings : Settings} {document : Document}
    {entries : List Entry} (h : readDeclarations settings document = .ok entries) :
    ∀ entry ∈ entries, entry.WellFormed := by
  unfold readDeclarations at h
  simp only [bind_eq_ok, mapError_eq_ok] at h
  obtain ⟨block, -, h⟩ := h
  exact wellFormed_of_readEntries h

-- The constants have distinct names, and each of them is made from an entry.

section

variable (docs : Dictionary String (List String)) (entries : List Entry)

theorem mem_constantsOf (constant : Constant) :
    constant ∈ constantsOf docs entries ↔
      ∃ entry, IsLast .name entries entry ∧ constantOf docs entry = constant := by
  have hlast (name : String) := exists_isLast_iff .name entries (constantOf docs) name constant
  unfold constantsOf Dictionary.values
  rw [List.mem_map]
  constructor
  · rintro ⟨⟨name, _⟩, hm, rfl⟩
    rw [Dictionary.mem_pairs_ofList, Dictionary.lookup_reverse_eq_some_iff] at hm
    obtain ⟨entry, hl, -, he⟩ := (hlast name).mpr hm
    exact ⟨entry, hl, he⟩
  · rintro ⟨entry, hl, rfl⟩
    refine ⟨(entry.name, constantOf docs entry), ?_, rfl⟩
    rw [Dictionary.mem_pairs_ofList, Dictionary.lookup_reverse_eq_some_iff]
    exact (hlast entry.name).mp ⟨entry, hl, rfl, rfl⟩

theorem names_constantsOf :
    (constantsOf docs entries).map (·.name)
      = (Dictionary.ofList
          (entries.map fun entry => (entry.name, constantOf docs entry))).keys := by
  let made := Dictionary.ofList (entries.map fun entry => (entry.name, constantOf docs entry))
  have hname : ∀ pair ∈ made.pairs, pair.2.name = pair.1 := by
    rintro ⟨name, constant⟩ hm
    rw [Dictionary.mem_pairs_ofList, Dictionary.lookup_reverse_eq_some_iff] at hm
    obtain ⟨entry, -, rfl, rfl⟩ :=
      (exists_isLast_iff .name entries (constantOf docs) name constant).mpr hm
    rfl
  unfold constantsOf Dictionary.values Dictionary.keys
  rw [List.map_map]
  exact List.map_congr_left hname

theorem names_nodup_constantsOf : ((constantsOf docs entries).map (·.name)).Nodup := by
  rw [names_constantsOf]
  exact Dictionary.keys_nodup_ofList _

theorem constantsOf_of_nodup (h : (keys .name entries).Nodup) :
    constantsOf docs entries = entries.map (constantOf docs) := by
  unfold constantsOf Dictionary.values
  rw [Dictionary.pairs_ofList_of_nodup (by simpa [keys, Entry.key, Function.comp_def] using h)]
  simp [Function.comp_def]

end

-- The names that a class is generated from are names of entries.
theorem forall_names_modelOf (settings : Settings) (protos : List Proto.File)
    {entries : List Entry} {P : String → Prop} (h : ∀ entry ∈ entries, P entry.name) :
    (∀ pair ∈ (modelOf settings protos entries).toName.names.pairs, P pair.2) ∧
      (∀ pair ∈ (modelOf settings protos entries).fromCode.names.pairs, P pair.2) ∧
      ∀ constant ∈ (modelOf settings protos entries).constants, P constant.name := by
  refine ⟨fun pair hm => ?_, fun pair hm => ?_, fun constant hm => ?_⟩
  · obtain ⟨entry, hl, -, hname⟩ :=
      (Table.mem_pairs_lastWins .name entries pair.1 pair.2).mp hm
    exact hname ▸ h entry hl.mem
  · obtain ⟨entry, hl, -, hname⟩ :=
      (Table.mem_pairs_lastWins .code entries pair.1 pair.2).mp hm
    exact hname ▸ h entry hl.mem
  · obtain ⟨entry, hl, rfl⟩ := (mem_constantsOf _ entries constant).mp hm
    exact h entry hl.mem

theorem numeral_modelOf {settings : Settings} {protos : List Proto.File} {entries : List Entry} :
    ∀ pair ∈ (modelOf settings protos entries).fromCode.names.pairs,
      ∃ n : Int, pair.1 = toString n := by
  intro pair hm
  obtain ⟨entry, -, hkey, -⟩ := (Table.mem_pairs_lastWins .code entries pair.1 pair.2).mp hm
  exact ⟨entry.number, hkey.symm⟩

end Codebook
