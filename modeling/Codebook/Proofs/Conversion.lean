import Codebook.Generation
import Codebook.Proofs.Generated
import Codebook.Proofs.Proto.Comment
import Codebook.Proofs.Proto.Docs
import Codebook.Proofs.Script.Reading.Theorems

namespace Codebook

open Declarations Script

-- The class that is generated converts between the names and the codes of the declarations.

-- The members of some names
def membersOf (style : NameStyle) (names : List String) : List String :=
  names.map (memberName style)

theorem isPlain_style (settings : Settings) : settings.style.IsPlain := by
  have hclass : ∀ target : Target, ∃ c rest, target.className.toList = c :: rest ∧
      c.isUpper ∧ c ≠ 'O' := by
    rintro (_ | _)
    · exact ⟨'S', _, rfl, by decide⟩
    · exact ⟨'R', _, rfl, by decide⟩
  have hword : ∀ target : Target, ' ' ∉ target.className.toList ∧
      '\n' ∉ target.className.toList := by
    rintro (_ | _) <;> decide
  have hline : ∀ target : Target, '\n' ∉ target.enumName.toList := by
    rintro (_ | _) <;> decide
  have hplain : IsWord settings.target.className := by
    obtain ⟨hspace, hfeed⟩ := hword settings.target
    intro x hx
    constructor
    · rintro rfl
      exact hspace hx
    · rintro rfl
      exact hfeed hx
  exact ⟨hclass settings.target, hplain, hline settings.target⟩

theorem isWord_of_wellFormed {entry : Entry} (h : entry.WellFormed) : IsWord entry.name := by
  intro c hc
  have hblank := h.name_blank c hc
  constructor
  · rintro rfl
    exact absurd hblank (by decide)
  · rintro rfl
    exact absurd hblank (by decide)

-- What holds of every doc in an accepted source holds of those of the definition.
theorem allDocs_definition {P : List String → Prop}
    (h : ∀ source file, Proto.parse source = .ok file → file.AllDocs P)
    {protos : List Proto.File} (hp : Proto.AreParsed protos) (settings : Settings) :
    ∀ enumeration ∈ definition? settings protos, enumeration.AllDocs P := by
  intro enumeration he
  obtain ⟨file, hm, hf⟩ := List.exists_of_findSome?_eq_some he
  exact (hp.allDocs h file hm).of_findEnum hf

theorem oneLine_parse (source : String) (file : Proto.File) (h : Proto.parse source = .ok file) :
    file.AllDocs fun doc => ∀ line ∈ doc, '\n' ∉ line.toList :=
  Proto.allDocs_parse nofun Proto.no_lineFeed_docLines
    (fun _ hrun => by simpa using Proto.no_lineFeed_remarkText hrun) h

-- The doc that some values give to a name. It is the one of the last of them with the name.
def IsDocFor (values : List Proto.EnumValue) (name : String) (doc : List String) : Prop :=
  (∃ front value behind, values = front ++ value :: behind ∧ value.name = name ∧
    name ∉ behind.map (·.name) ∧ value.doc = doc) ∨
  name ∉ values.map (·.name) ∧ doc = []

theorem isDocFor_constantOf (enumeration : Proto.Enumeration) (entry : Entry) :
    IsDocFor enumeration.values entry.name
      (constantOf (valueDocs (some enumeration)) entry).doc := by
  have hget : (valueDocs (some enumeration)).get? entry.name = Dictionary.lookup entry.name
      (enumeration.values.map fun value => (value.name, value.doc)).reverse :=
    Dictionary.get?_ofList _ _
  rw [constantOf, hget]
  cases hlast : Dictionary.lookup entry.name
      (enumeration.values.map fun value => (value.name, value.doc)).reverse with
  | none =>
      rw [Dictionary.lookup_eq_none_iff, ← List.map_reverse, List.map_map, List.mem_map] at hlast
      refine .inr ⟨fun hm => hlast ?_, rfl⟩
      obtain ⟨value, hv, hname⟩ := List.mem_map.mp hm
      exact ⟨value, List.mem_reverse.mpr hv, hname⟩
  | some doc =>
      obtain ⟨front, behind, hvalues, hbehind⟩ :=
        (Dictionary.lookup_reverse_eq_some_iff _ _ _).mp hlast
      obtain ⟨before, rest, hsplit, rfl, hrest⟩ := List.map_eq_append_iff.mp hvalues
      obtain ⟨value, after, rfl, hvalue, rfl⟩ := List.map_eq_cons_iff.mp hrest
      obtain ⟨hname, hdoc⟩ := Prod.mk.inj hvalue
      rw [List.map_map] at hbehind
      exact .inl ⟨before, value, after, hsplit, hname, hbehind, hdoc⟩

-- A constant has the doc of a value with its name.
theorem exists_of_doc_constantOf (definition : Option Proto.Enumeration) (entry : Entry) :
    (constantOf (valueDocs definition) entry).doc = [] ∨
      ∃ enumeration ∈ definition, ∃ value ∈ enumeration.values, value.name = entry.name ∧
        value.doc = (constantOf (valueDocs definition) entry).doc := by
  cases definition with
  | none => exact .inl rfl
  | some enumeration =>
      rcases isDocFor_constantOf enumeration entry with
        ⟨front, value, behind, hvalues, hname, -, hdoc⟩ | ⟨-, hnil⟩
      · exact .inr ⟨enumeration, rfl, value, by simp [hvalues], hname, hdoc⟩
      · exact .inl hnil

theorem doc_constantOf {P : List String → Prop} (hnil : P [])
    {definition : Option Proto.Enumeration}
    (h : ∀ enumeration ∈ definition, enumeration.AllDocs P) (entry : Entry) :
    P (constantOf (valueDocs definition) entry).doc := by
  rcases exists_of_doc_constantOf definition entry with hdoc | ⟨enumeration, he, value, hv, -, hdoc⟩
  · exact hdoc ▸ hnil
  · exact hdoc ▸ (h enumeration he).2 value hv

theorem isPlain_modelOf {settings : Settings} {protos : List Proto.File} {entries : List Entry}
    (hp : Proto.AreParsed protos) (he : ∀ entry ∈ entries, entry.WellFormed) :
    (modelOf settings protos entries).IsPlain := by
  obtain ⟨hnamed, hcoded, hconstant⟩ := forall_names_modelOf settings protos
    (P := IsWord) fun entry hm => isWord_of_wellFormed (he entry hm)
  refine ⟨hnamed, hcoded, numeral_modelOf, hconstant, fun constant hm => ?_, fun constant hm => ?_⟩
  · obtain ⟨entry, hl, rfl⟩ := (mem_constantsOf _ entries constant).mp hm
    exact (he entry hl.mem).number_inRange
  · obtain ⟨entry, -, rfl⟩ := (mem_constantsOf _ entries constant).mp hm
    exact doc_constantOf (P := fun doc => ∀ line ∈ doc, '\n' ∉ line.toList) nofun
      (allDocs_definition oneLine_parse hp settings) entry

-- The text of a class as it is read back
def readingOfCode (settings : Settings) (generated : Generated) : Reading :=
  Reading.ofText settings.target.className generated.code

theorem readingOfCode_generatedOf (settings : Settings) (protos : List Proto.File)
    (entries : List Entry) :
    readingOfCode settings (generatedOf settings protos entries)
      = readingOf settings.style (modelOf settings protos entries) := rfl

section

variable {settings : Settings} {protos : List Proto.File} {entries : List Entry}
  (hp : Proto.AreParsed protos) (he : ∀ entry ∈ entries, entry.WellFormed)

include hp he

theorem get?_instances_generatedOf
    (hn : (membersOf settings.names
      ((modelOf settings protos entries).constants.map (·.name))).Nodup)
    {order : Nat} {constant : Constant}
    (hc : (modelOf settings protos entries).constants[order]? = some constant) :
    (readingOfCode settings (generatedOf settings protos entries)).instances.get?
      (memberText settings.style constant.name) = some ⟨order, constant.number⟩ := by
  have hmembers : ((modelOf settings protos entries).constants.map
      fun constant => memberText settings.style constant.name).Nodup := by
    have hmap := hn.map (f := String.toList) fun a b => String.toList_inj.mp
    rw [membersOf, List.map_map, List.map_map] at hmap
    exact hmap
  exact get?_instances (isPlain_style settings) (isPlain_modelOf hp he) hmembers hc

-- A code is answered with the instance of the name that its last entry has.
theorem fromCode_of_isLast
    (hn : (membersOf settings.names
      ((modelOf settings protos entries).constants.map (·.name))).Nodup)
    {entry : Entry} (hl : IsLast .code entries entry) {order : Nat} {constant : Constant}
    (hc : (modelOf settings protos entries).constants[order]? = some constant)
    (hname : constant.name = entry.name) :
    (readingOfCode settings (generatedOf settings protos entries)).fromCode entry.number
      = .member (some ⟨order, constant.number⟩) := by
  have hget : (modelOf settings protos entries).fromCode.names.get? (toString entry.number)
      = some entry.name :=
    (Table.get?_lastWins .code entries _ _).mpr ⟨entry, hl, rfl, rfl⟩
  have hinstance := get?_instances_generatedOf hp he hn hc
  rw [readingOfCode_generatedOf] at hinstance ⊢
  rw [fromCode_classPage (isPlain_style settings) (isPlain_modelOf hp he), hget, ← hname]
  exact congrArg Answer.member hinstance

-- No other code is answered with an instance.
theorem fromCode_of_notMem {n : Int} (hn : n ∉ entries.map (·.number)) :
    (readingOfCode settings (generatedOf settings protos entries)).fromCode n = .default := by
  have hget : (modelOf settings protos entries).fromCode.names.get? (toString n) = none := by
    by_contra hne
    obtain ⟨name, hname⟩ := Option.ne_none_iff_exists'.mp hne
    obtain ⟨entry, hl, hkey, -⟩ := (Table.get?_lastWins .code entries _ name).mp hname
    exact hn (List.mem_map.mpr ⟨entry, hl.mem, Number.toString_inj hkey⟩)
  rw [readingOfCode_generatedOf, fromCode_classPage (isPlain_style settings)
    (isPlain_modelOf hp he), hget]

-- An instance is named by the name of its constant.
theorem toName_generatedOf
    (hn : (membersOf settings.names
      ((modelOf settings protos entries).constants.map (·.name))).Nodup)
    {order : Nat} {constant : Constant}
    (hc : (modelOf settings protos entries).constants[order]? = some constant) :
    (readingOfCode settings (generatedOf settings protos entries)).toName
      ⟨order, constant.number⟩ = some constant.name := by
  have hinstance := get?_instances_generatedOf hp he hn hc
  have hpair : (constant.name, constant.name)
      ∈ (modelOf settings protos entries).toName.names.pairs := by
    obtain ⟨entry, hl, rfl⟩ := (mem_constantsOf _ entries constant).mp (List.mem_of_getElem? hc)
    exact (Table.mem_pairs_lastWins .name entries _ _).mpr ⟨entry, hl, rfl, rfl⟩
  rw [readingOfCode_generatedOf, toName_classPage (isPlain_style settings)
    (isPlain_modelOf hp he), ← readingOfCode_generatedOf]
  cases hfound : (modelOf settings protos entries).toName.names.pairs.find? fun pair =>
      (readingOfCode settings (generatedOf settings protos entries)).instances.get?
        (memberText settings.style pair.2) == some ⟨order, constant.number⟩ with
  | none =>
      have hnone := List.find?_eq_none.mp hfound _ hpair
      simp [hinstance] at hnone
  | some pair =>
      have hsame := List.find?_some hfound
      obtain ⟨entry, hl, -, hname⟩ := (Table.mem_pairs_lastWins .name entries pair.1 pair.2).mp
        (List.mem_of_find?_eq_some hfound)
      -- the name that was found has a constant of its own, and its instance is in the same place
      obtain ⟨other, hother⟩ := List.getElem?_of_mem
        ((mem_constantsOf (valueDocs (definition? settings protos)) entries _).mpr ⟨entry, hl, rfl⟩)
      have hothers := get?_instances_generatedOf hp he hn hother
      rw [← hname, beq_iff_eq] at hsame
      obtain rfl := congrArg Instance.order (Option.some.inj (hothers.symm.trans hsame))
      obtain rfl := Option.some.inj (hother.symm.trans hc)
      rw [Option.map_some, ← hname]
      rfl

end

-- Without duplicates the constants are the entries.
theorem constants_of_nodup (settings : Settings) (protos : List Proto.File)
    {entries : List Entry} (hn : (keys .name entries).Nodup) :
    (modelOf settings protos entries).constants
      = entries.map (constantOf (valueDocs (definition? settings protos))) :=
  constantsOf_of_nodup _ _ hn

-- The text converts each declared code into an instance that has the code and the name of the
-- declaration, and it converts no other code. Raw names are always distinct as members.
theorem converts_both_ways {settings : Settings} {document : Document}
    {protos : List Proto.File} {generated : Generated} (hp : Proto.AreParsed protos)
    (hr : settings.duplicates = .reject) (h : compile settings document protos = .ok generated) :
    ∃ entries, readDeclarations settings document = .ok entries ∧
      ((settings.names = .pascal →
          (membersOf settings.names (entries.map (·.name))).Nodup) →
        (∀ entry ∈ entries, ∃ subject,
          (readingOfCode settings generated).fromCode entry.number = .member (some subject) ∧
            subject.code = entry.number ∧
            (readingOfCode settings generated).toName subject = some entry.name) ∧
        ∀ n : Int, n ∉ entries.map (·.number) →
          (readingOfCode settings generated).fromCode n = .default) := by
  obtain ⟨entries, hentries, hpasses, rfl⟩ := compile_eq_ok.mp h
  refine ⟨entries, hentries, fun hmembers => ?_⟩
  have he := wellFormed_of_readDeclarations hentries
  have hnames : (keys .name entries).Nodup := hpasses hr .name
  have hconstants := constants_of_nodup settings protos hnames
  have hn : (membersOf settings.names
      ((modelOf settings protos entries).constants.map (·.name))).Nodup := by
    have hsame : (modelOf settings protos entries).constants.map (·.name)
        = entries.map (·.name) := by
      rw [hconstants, List.map_map]
      rfl
    rw [hsame]
    cases hstyle : settings.names with
    | raw =>
        rw [membersOf, List.map_map]
        exact hnames
    | pascal => exact hstyle ▸ hmembers hstyle
  refine ⟨fun entry hm => ?_, fun n hnot => fromCode_of_notMem hp he hnot⟩
  obtain ⟨order, horder⟩ := List.getElem?_of_mem hm
  have hc : (modelOf settings protos entries).constants[order]?
      = some (constantOf (valueDocs (definition? settings protos)) entry) := by
    rw [hconstants, List.getElem?_map, horder, Option.map_some]
  have hl : IsLast .code entries entry := isLast_of_nodup (hpasses hr .code) hm
  exact ⟨_, fromCode_of_isLast hp he hn hl hc rfl, rfl, toName_generatedOf hp he hn hc⟩

-- Two codes in the declarations, and a definition source that is empty
def twoCodes : Document := ⟨"proto.d.ts", "enum ResponseCodeEnum \x7b\nOK = 0,\nBUSY = 12\n\x7d"⟩

def emptySource : Proto.File := {}

theorem parse_empty : Proto.parse "" = .ok {} := by
  have hpieces : Proto.pieces "".toList = ([], none) := by
    rw [String.toList_empty]
    unfold Proto.pieces
    rfl
  unfold Proto.parse Proto.tokenize
  rw [hpieces]
  rfl

theorem areParsed_emptySource : Proto.AreParsed [emptySource] :=
  List.forall_mem_singleton.mpr ⟨_, _, parse_empty, rfl⟩

theorem readDeclarations_twoCodes :
    readDeclarations {} twoCodes = .ok [⟨"OK", "0", 0, ⟨⟨24, 1, 0⟩, ⟨31, 1, 7⟩⟩⟩,
      ⟨"BUSY", "12", 12, ⟨⟨32, 2, 0⟩, ⟨41, 2, 9⟩⟩⟩] := by
  rfl

theorem converts_two_codes :
    ∃ generated, compile {} twoCodes [emptySource] = .ok generated ∧
      ∃ subject, (readingOfCode {} generated).fromCode 12 = .member (some subject) ∧
        subject.code = 12 ∧ (readingOfCode {} generated).toName subject = some "BUSY" := by
  have hcompile : compile {} twoCodes [emptySource] = .ok (generatedOf {} [emptySource] _) :=
    compile_eq_ok.mpr ⟨_, readDeclarations_twoCodes,
      fun _ column => by cases column <;> decide, rfl⟩
  refine ⟨_, hcompile, ?_⟩
  obtain ⟨entries, hentries, hconverts⟩ := converts_both_ways areParsed_emptySource rfl hcompile
  obtain rfl := Except.ok.inj (readDeclarations_twoCodes.symm.trans hentries)
  have hmembers : (membersOf .pascal ["OK", "BUSY"]).Nodup := by decide +kernel
  have hcodes := (hconverts fun _ => hmembers).1
  exact (List.forall_mem_cons.mp (List.forall_mem_cons.mp hcodes).2).1

end Codebook
