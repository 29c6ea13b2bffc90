import Codebook.Proofs.Conversion.Agreement
import Codebook.Proofs.Declarations.Block
import Codebook.Proofs.Script.Marks
import Mathlib.Data.List.Forall2

namespace Codebook

open Declarations Script

-- The entries of the declarations that the marks of the generated text lead back to. The line of
-- a label is looked up by name among the constants, so the label of a code has the line of the
-- last entry with its name.

-- An entry is read from the line of a block that has a number
def HasEntry (block : Block) (number : Nat) (entry : Entry) : Prop :=
  ∃ line ∈ block.lines, line.number = number ∧ readEntry line = .ok (some entry)

-- What a mark leads to is a line of a page, and a line of a block on which an entry is an origin
def Traces (block : Block) (found : Option (List Char) × Nat) (line : List Char)
    (origin : Entry → Prop) : Prop :=
  found.1 = some line ∧ ∃ entry, HasEntry block found.2 entry ∧ origin entry

theorem readDeclarations_eq_ok {settings : Settings} {document : Document}
    {entries : List Entry} :
    readDeclarations settings document = .ok entries ↔
      ∃ block, firstBlock settings.markers document.text = .ok block ∧
        readEntries block = .ok entries := by
  unfold readDeclarations
  simp only [bind_eq_ok, mapError_eq_ok]

theorem hasEntry_of_mem {block : Block} {entries : List Entry}
    (h : readEntries block = .ok entries) {entry : Entry} (hm : entry ∈ entries) :
    HasEntry block entry.span.start.line entry := by
  obtain ⟨line, hline, hread⟩ := mem_readLines h hm
  exact ⟨line, hline, by rw [span_of_readEntry hread, Line.number], hread⟩

-- A line has no more than one entry.
theorem hasEntry_unique {block : Block} (hn : (block.lines.map Line.number).Nodup)
    {number : Nat} {a b : Entry} (ha : HasEntry block number a) (hb : HasEntry block number b) :
    a = b := by
  obtain ⟨line, hline, hnumber, hread⟩ := ha
  obtain ⟨other, hother, hsame, hagain⟩ := hb
  have heq : line = other :=
    List.inj_on_of_nodup_map hn hline hother (hnumber.trans hsame.symm)
  rw [← heq, hread] at hagain
  exact Option.some.inj (Except.ok.inj hagain)

theorem declaredLine_of_mem {constants : List Constant} (hn : (constants.map (·.name)).Nodup)
    {constant : Constant} (hm : constant ∈ constants) :
    declaredLine (declaredLines constants) constant.name = constant.line := by
  have hkeys : ((constants.map fun constant => (constant.name, constant.line)).map
      Prod.fst).Nodup := by
    rw [List.map_map]
    exact hn
  have hget : (declaredLines constants).get? constant.name = some constant.line := by
    rw [declaredLines, Dictionary.get?, Dictionary.pairs_ofList_of_nodup hkeys,
      Dictionary.lookup_eq_some_iff hkeys]
    exact List.mem_map_of_mem hm
  rw [declaredLine, hget, Option.getD_some]

-- Marks that lead to the lines of some items in their order trace entries exactly when the
-- declared lines of the items have them.
theorem forall₂_traces_iff {α : Type} {page : Page} (block : Block) {marks : List Mark}
    {items : List α} {traced : α → List Char × Nat} (origin : α → Entry → Prop)
    (h : marks.map page.follow
      = (items.map traced).map fun (line, declared) => (some line, declared)) :
    List.Forall₂ (fun mark item => Traces block (page.follow mark) (traced item).1 (origin item))
        marks items ↔
      ∀ item ∈ items, ∃ entry, HasEntry block (traced item).2 entry ∧ origin item entry := by
  have hmarks : List.Forall₂ (fun found item => Traces block found (traced item).1 (origin item))
      (marks.map page.follow) items ↔
      List.Forall₂ (fun mark item => Traces block (page.follow mark) (traced item).1
        (origin item)) marks items := List.forall₂_map_left_iff
  rw [h, List.map_map, List.forall₂_map_left_iff, List.forall₂_same] at hmarks
  refine hmarks.symm.trans (forall₂_congr fun item _ => ?_)
  simp [Traces]

section

variable (settings : Settings) (protos : List Proto.File) {block : Block} {entries : List Entry}
  (hread : readEntries block = .ok entries)

include hread

-- A declared name leads to the line of its last entry, from which its constant is made.
theorem exists_origin {name : String} (hm : name ∈ keys .name entries) :
    ∃ entry, HasEntry block (declaredLine
        (declaredLines (modelOf settings protos entries).constants) name) entry ∧
      entry.name = name ∧
      constantOf (valueDocs (definition? settings protos)) entry
        ∈ (modelOf settings protos entries).constants := by
  obtain ⟨entry, hl, rfl⟩ := exists_isLast hm
  have hconstant := (mem_constantsOf (valueDocs (definition? settings protos)) entries _).mpr
    ⟨entry, hl, rfl⟩
  have hline := declaredLine_of_mem (names_nodup_constantsOf _ entries) hconstant
  exact ⟨entry, hline ▸ hasEntry_of_mem hread hl.mem, rfl, hconstant⟩

theorem exists_origin_of_name {pair : String × String}
    (hp : pair ∈ (modelOf settings protos entries).toName.names.pairs) :
    ∃ entry, HasEntry block (declaredLine
        (declaredLines (modelOf settings protos entries).constants) pair.1) entry ∧
      entry.name = pair.2 := by
  obtain ⟨entry, hl, hkey, hname⟩ :=
    (Table.mem_pairs_lastWins .name entries pair.1 pair.2).mp hp
  obtain ⟨origin, horigin, hsame, -⟩ :=
    exists_origin settings protos hread (List.mem_map.mpr ⟨entry, hl.mem, hkey⟩)
  exact ⟨origin, horigin, hsame.trans (hkey.symm.trans hname)⟩

theorem exists_origin_of_code {pair : String × String}
    (hp : pair ∈ (modelOf settings protos entries).fromCode.names.pairs) :
    ∃ entry, HasEntry block (declaredLine
        (declaredLines (modelOf settings protos entries).constants) pair.2) entry ∧
      entry.name = pair.2 ∧
      constantOf (valueDocs (definition? settings protos)) entry
        ∈ (modelOf settings protos entries).constants := by
  obtain ⟨entry, hl, -, hname⟩ := (Table.mem_pairs_lastWins .code entries pair.1 pair.2).mp hp
  exact exists_origin settings protos hread (List.mem_map.mpr ⟨entry, hl.mem, hname⟩)

theorem origin_of_constant {constant : Constant}
    (hc : constant ∈ (modelOf settings protos entries).constants) :
    ∃ entry, HasEntry block constant.line entry ∧
      entry.name = constant.name ∧ entry.number = constant.number := by
  obtain ⟨entry, hl, rfl⟩ := (mem_constantsOf _ entries constant).mp hc
  exact ⟨entry, hasEntry_of_mem hread hl.mem, rfl, rfl⟩

-- The codes lead to entries that have them exactly when the constants agree with the table.
theorem origins_have_codes_iff (hn : (block.lines.map Line.number).Nodup) :
    (∀ pair ∈ (modelOf settings protos entries).fromCode.names.pairs, ∃ entry,
      HasEntry block (declaredLine
        (declaredLines (modelOf settings protos entries).constants) pair.2) entry ∧
      entry.name = pair.2 ∧ toString entry.number = pair.1) ↔
      CodesFollowNames entries := by
  rw [← codesAgree_iff settings protos entries]
  constructor
  · intro horigins pair hp constant hc hname
    obtain ⟨entry, hentry, -, hcode⟩ := horigins pair hp
    have hline := declaredLine_of_mem (names_nodup_constantsOf _ entries) hc
    obtain ⟨origin, horigin, -, hnumber⟩ := origin_of_constant settings protos hread hc
    rw [hname] at hline
    have heq : entry = origin := hasEntry_unique hn hentry (hline ▸ horigin)
    rw [← hnumber, ← heq, hcode]
  · intro hagree pair hp
    obtain ⟨entry, hentry, hname, hc⟩ := exists_origin_of_code settings protos hread hp
    exact ⟨entry, hentry, hname, hagree pair hp _ hc hname⟩

end

-- Every mark leads to a line with an entry that has the name of the label or of the definition, in
-- the case of a definition also the number. The entries of the codes have these codes exactly
-- when codes follow names; they do whenever duplicates are rejected.
theorem marks_trace_entries {settings : Settings} {document : Document}
    {protos : List Proto.File} {generated : Generated}
    (h : compile settings document protos = .ok generated) :
    ∃ block entries toName fromCode,
      firstBlock settings.markers document.text = .ok block ∧
      readEntries block = .ok entries ∧
      Table.ofEntries .name settings.duplicates entries = .ok toName ∧
      Table.ofEntries .code settings.duplicates entries = .ok fromCode ∧
      ∃ named coded defined, generated.page.marks.toList = named ++ (coded ++ defined) ∧
        List.Forall₂ (fun mark pair => Traces block (generated.page.follow mark)
            (nameLabel settings.style pair.2) fun entry => entry.name = pair.2)
          named toName.names.pairs ∧
        List.Forall₂ (fun mark pair => Traces block (generated.page.follow mark)
            (codeLabel pair.1) fun entry => entry.name = pair.2)
          coded fromCode.names.pairs ∧
        List.Forall₂ (fun mark constant => Traces block (generated.page.follow mark)
            (definitionLine settings.style constant) fun entry =>
              entry.name = constant.name ∧ entry.number = constant.number)
          defined generated.constants ∧
        (List.Forall₂ (fun mark pair => Traces block (generated.page.follow mark)
            (codeLabel pair.1) fun entry =>
              entry.name = pair.2 ∧ toString entry.number = pair.1)
          coded fromCode.names.pairs ↔ CodesFollowNames entries) ∧
        (settings.duplicates = .reject → CodesFollowNames entries) := by
  obtain ⟨entries, hentries, hpasses, rfl⟩ := compile_eq_ok.mp h
  obtain ⟨block, hblock, hread⟩ := readDeclarations_eq_ok.mp hentries
  have hmarks := map_follow_classPage (isPlain_style settings) (modelOf settings protos entries)
  rw [tracedLines, List.map_append, List.map_append] at hmarks
  obtain ⟨named, rest, hsplit, hnamed, hrest⟩ := List.map_eq_append_iff.mp hmarks
  obtain ⟨coded, defined, rfl, hcoded, hdefined⟩ := List.map_eq_append_iff.mp hrest
  refine ⟨block, entries, _, _, hblock, hread,
    Table.ofEntries_eq_ok.mpr ⟨fun hr => hpasses hr .name, rfl⟩,
    Table.ofEntries_eq_ok.mpr ⟨fun hr => hpasses hr .code, rfl⟩,
    named, coded, defined, hsplit, ?_, ?_, ?_, ?_, ?_⟩
  · exact (forall₂_traces_iff block (fun pair entry => entry.name = pair.2) hnamed).mpr
      fun pair hm => exists_origin_of_name settings protos hread hm
  · refine (forall₂_traces_iff block (fun pair entry => entry.name = pair.2) hcoded).mpr
      fun pair hm => ?_
    obtain ⟨entry, hentry, hname, -⟩ := exists_origin_of_code settings protos hread hm
    exact ⟨entry, hentry, hname⟩
  · exact (forall₂_traces_iff block (fun constant entry =>
      entry.name = constant.name ∧ entry.number = constant.number) hdefined).mpr
      fun constant hm => origin_of_constant settings protos hread hm
  · exact (forall₂_traces_iff block (fun pair entry =>
      entry.name = pair.2 ∧ toString entry.number = pair.1) hcoded).trans
      (origins_have_codes_iff settings protos hread (numbers_nodup_firstBlock hblock))
  · intro hr
    exact codesFollowNames_of_nodup (hpasses hr .name)

-- The label of a code that was moved has its name on the declared line, but not the code.
theorem marks_miss_moved_code :
    ∃ generated block coded, compile lastWinsRaw movedName [emptySource] = .ok generated ∧
      firstBlock lastWinsRaw.markers movedName.text = .ok block ∧
      (∀ mark ∈ coded, mark ∈ generated.page.marks.toList) ∧
      List.Forall₂ (fun mark pair => Traces block (generated.page.follow mark)
          (codeLabel pair.1) fun entry => entry.name = pair.2)
        coded [("1", "A"), ("2", "A")] ∧
      ¬ List.Forall₂ (fun mark pair => Traces block (generated.page.follow mark)
          (codeLabel pair.1) fun entry => entry.name = pair.2 ∧ toString entry.number = pair.1)
        coded [("1", "A"), ("2", "A")] := by
  have hcompile : compile lastWinsRaw movedName [emptySource]
      = .ok (generatedOf lastWinsRaw [emptySource] _) :=
    compile_eq_ok.mpr ⟨_, readDeclarations_movedName, nofun, rfl⟩
  obtain ⟨block, entries, toName, fromCode, hblock, hread, -, hcodes, named, coded, defined, hsplit,
    -, hnames, -, hnumbers, -⟩ := marks_trace_entries hcompile
  obtain rfl := Except.ok.inj
    (readDeclarations_movedName.symm.trans (readDeclarations_eq_ok.mpr ⟨block, hblock, hread⟩))
  obtain rfl := (Table.ofEntries_eq_ok.mp hcodes).2
  refine ⟨_, block, coded, hcompile, hblock, fun mark hm => ?_, hnames, fun hall => ?_⟩
  · rw [hsplit]
    simp [hm]
  · have hmoved := hnumbers.mp hall [] _ _ rfl List.mem_cons_self
    simp at hmoved

end Codebook
