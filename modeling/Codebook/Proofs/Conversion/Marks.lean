import Codebook.Proofs.Conversion
import Codebook.Proofs.Script.Marks

namespace Codebook

open Declarations Script

-- The marks of the generated text lead to its labels and its definitions.

theorem marks_generatedOf (settings : Settings) {protos : List Proto.File} {entries : List Entry}
    (hp : Proto.AreParsed protos) (he : ∀ entry ∈ entries, entry.WellFormed) :
    let generated := generatedOf settings protos entries
    generated.page.marks.toList.map
        (fun mark => ((readingOfCode settings generated).lines[mark.written]?, mark.declared))
      = (tracedLines settings.style (modelOf settings protos entries)).map
        fun (line, declared) => (some line, declared) :=
  marks_readingOf (isPlain_style settings) (isPlain_modelOf hp he)

-- There is a mark for each name, each code and each constant. In this order they lead from the
-- top of the text to its bottom, each to the line that was written for it.
theorem marks_lead_to_lines {settings : Settings} {document : Document}
    {protos : List Proto.File} {generated : Generated} (hp : Proto.AreParsed protos)
    (h : compile settings document protos = .ok generated) :
    ∃ entries toName fromCode, readDeclarations settings document = .ok entries ∧
      Table.ofEntries .name settings.duplicates entries = .ok toName ∧
      Table.ofEntries .code settings.duplicates entries = .ok fromCode ∧
      generated.page.marks.toList.Pairwise (fun mark next => mark.written < next.written) ∧
      generated.page.marks.size
        = toName.names.size + fromCode.names.size + generated.constants.length ∧
      generated.page.marks.toList.map
          (fun mark => (readingOfCode settings generated).lines[mark.written]?)
        = (toName.names.pairs.map (fun pair => nameLabel settings.style pair.2)
            ++ (fromCode.names.pairs.map (fun pair => codeLabel pair.1)
              ++ generated.constants.map (definitionLine settings.style))).map some := by
  obtain ⟨entries, hentries, hpasses, rfl⟩ := compile_eq_ok.mp h
  have hmarks := marks_generatedOf settings hp
    (wellFormed_of_readDeclarations hentries)
  refine ⟨entries, _, _, hentries, Table.ofEntries_eq_ok.mpr ⟨fun hr => hpasses hr .name, rfl⟩,
    Table.ofEntries_eq_ok.mpr ⟨fun hr => hpasses hr .code, rfl⟩, ?_, ?_, ?_⟩
  · have hpairwise :=
      written_pairwise 0 (scriptRows settings.style (modelOf settings protos entries))
    rw [← Page.marks_ofRows] at hpairwise
    exact hpairwise
  · have hlength := congrArg List.length hmarks
    rw [List.length_map, List.length_map, Array.length_toList, tracedLines, List.length_append,
      List.length_append, ← Nat.add_assoc, tracedNames, tracedCodes, tracedDefinitions,
      List.length_map, List.length_map, List.length_map] at hlength
    exact hlength
  · have hlines := congrArg (List.map Prod.fst) hmarks
    rw [List.map_map] at hlines
    refine hlines.trans ?_
    simp only [tracedLines, tracedNames, tracedCodes, tracedDefinitions, List.map_append,
      List.map_map]
    rfl

theorem marks_lead_to_lines_of_two_codes :
    ∃ generated, compile {} twoCodes [emptySource] = .ok generated ∧
      generated.page.marks.toList.map
          (fun mark => (readingOfCode {} generated).lines[mark.written]?)
        = ["case Status.Ok:", "case Status.Busy:", "case 0:", "case 12:",
            "Status.Ok = new Status(0);", "Status.Busy = new Status(12);"].map
          (some ·.toList) := by
  have hcompile : compile {} twoCodes [emptySource] = .ok (generatedOf {} [emptySource] _) :=
    compile_eq_ok.mpr ⟨_, readDeclarations_twoCodes,
      fun _ column => by cases column <;> decide, rfl⟩
  refine ⟨_, hcompile, ?_⟩
  obtain ⟨entries, toName, fromCode, hentries, hnames, hcodes, -, -, hlines⟩ :=
    marks_lead_to_lines areParsed_emptySource hcompile
  obtain rfl := Except.ok.inj (readDeclarations_twoCodes.symm.trans hentries)
  obtain rfl := (Table.ofEntries_eq_ok.mp hnames).2
  obtain rfl := (Table.ofEntries_eq_ok.mp hcodes).2
  rw [hlines]
  decide +kernel

end Codebook
