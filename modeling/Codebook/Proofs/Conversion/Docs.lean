import Codebook.Proofs.Conversion
import Codebook.Proofs.Script.Comments.Rows

namespace Codebook

open Declarations Script

-- The definitions decide on the docs and on the drift. Everything else that is generated is the
-- same as without any definition.

theorem constantsOf_undocumented (docs : Dictionary String (List String))
    (entries : List Entry) :
    (constantsOf docs entries).map Constant.undocumented = constantsOf {} entries := by
  have hvalues := Dictionary.values_ofList_map Constant.undocumented
    (entries.map fun entry => (entry.name, constantOf docs entry))
  rw [constantsOf, ← hvalues, List.map_map]
  rfl

theorem modelOf_undocumented (settings : Settings) (protos : List Proto.File)
    (entries : List Entry) :
    (modelOf settings protos entries).undocumented = modelOf settings [] entries := by
  rw [modelOf, ClassModel.undocumented, constantsOf_undocumented]
  rfl

-- The entries of the declarations if there is a table for either column
def acceptedEntries (settings : Settings) (document : Document) : Except Failure (List Entry) := do
  let entries ← readDeclarations settings document
  let table (column : Column) : Except Failure Table :=
    (Table.ofEntries column settings.duplicates entries).mapError
      fun fault => document.failure fault.diagnostic
  let _ ← table .name
  let _ ← table .code
  return entries

-- The definitions have no part in whether there is a result.
theorem compile_eq_map (settings : Settings) (document : Document) (protos : List Proto.File) :
    compile settings document protos
      = (acceptedEntries settings document).map (generatedOf settings protos) := by
  unfold compile acceptedEntries
  cases readDeclarations settings document with
  | error failure => rfl
  | ok entries =>
      cases hname : Table.ofEntries .name settings.duplicates entries with
      | error fault => simp [hname, bind, Except.bind, Except.mapError, Except.map]
      | ok toName =>
          cases hcode : Table.ofEntries .code settings.duplicates entries with
          | error fault => simp [hname, hcode, bind, Except.bind, Except.mapError, Except.map]
          | ok fromCode =>
              obtain ⟨-, rfl⟩ := Table.ofEntries_eq_ok.mp hname
              obtain ⟨-, rfl⟩ := Table.ofEntries_eq_ok.mp hcode
              simp [hname, hcode, bind, Except.bind, Except.mapError, Except.map, pure,
                Except.pure, generatedOf, modelOf]

theorem readDeclarations_of_acceptedEntries {settings : Settings} {document : Document}
    {entries : List Entry} (h : acceptedEntries settings document = .ok entries) :
    readDeclarations settings document = .ok entries := by
  unfold acceptedEntries at h
  simp only [bind_eq_ok] at h
  obtain ⟨read, hread, -, -, -, -, h⟩ := h
  obtain rfl := Except.ok.inj h
  exact hread

theorem hasIdentifiers_style (settings : Settings) : settings.style.HasIdentifiers := by
  have hwords : ∀ target : Target, target.className.toList.all Proto.inWord ∧
      target.enumName.toList.all Proto.inWord := by
    rintro (_ | _) <;> decide
  obtain ⟨hclass, henum⟩ := hwords settings.target
  exact ⟨List.all_eq_true.mp hclass, List.all_eq_true.mp henum⟩

theorem hasIdentifiers_modelOf (settings : Settings) (protos : List Proto.File)
    {entries : List Entry} (hn : ∀ entry ∈ entries, IsIdentifierText entry.name.toList) :
    (modelOf settings protos entries).HasIdentifiers := by
  obtain ⟨hnamed, hcoded, hconstant⟩ := forall_names_modelOf settings protos
    (P := fun name => IsIdentifierText name.toList) hn
  exact ⟨hnamed, hcoded, numeral_modelOf, hconstant⟩

theorem code_generatedOf (settings : Settings) (protos : List Proto.File)
    {entries : List Entry} (hn : ∀ entry ∈ entries, IsIdentifierText entry.name.toList) :
    codeLines (generatedOf settings protos entries).code.toList
      = ((headRows settings.style (modelOf settings [] entries)).filter Row.isCode).map Row.written
        ++ (generatedOf settings protos entries).constants.map
          (definitionLine settings.style) := by
  have hcode := codeLines_classPage (hasIdentifiers_style settings)
    (hasIdentifiers_modelOf settings protos hn)
  rw [← headRows_undocumented, modelOf_undocumented] at hcode
  exact hcode

theorem declared_generatedOf (settings : Settings) (protos : List Proto.File)
    (entries : List Entry) :
    (generatedOf settings protos entries).page.marks.toList.map Mark.declared
      = (tracedLines settings.style (modelOf settings [] entries)).map Prod.snd := by
  rw [← modelOf_undocumented settings protos, tracedLines_undocumented]
  exact map_declared_classPage (isPlain_style settings) _

theorem definitionLines_generatedOf (settings : Settings) (protos : List Proto.File)
    (entries : List Entry) :
    (generatedOf settings protos entries).constants.map (definitionLine settings.style)
      = (modelOf settings [] entries).constants.map (definitionLine settings.style) := by
  rw [← modelOf_undocumented settings protos, ClassModel.undocumented, List.map_map]
  rfl

-- What is generated apart from docs and drift. The code is what the text says without comments
-- and blank lines, and it ends with the definitions.
structure SameCode (settings : Settings) (generated other : Generated) : Prop where
  className : generated.className = other.className
  output : generated.output = other.output
  constants : generated.constants.map Constant.undocumented
    = other.constants.map Constant.undocumented
  declared : generated.page.marks.toList.map Mark.declared
    = other.page.marks.toList.map Mark.declared
  code : codeLines generated.code.toList = codeLines other.code.toList
  definitions : generated.constants.map (definitionLine settings.style)
    <:+ codeLines generated.code.toList

theorem sameCode_generatedOf (settings : Settings) (protos others : List Proto.File)
    {entries : List Entry} (hn : ∀ entry ∈ entries, IsIdentifierText entry.name.toList) :
    SameCode settings (generatedOf settings protos entries)
      (generatedOf settings others entries) where
  className := rfl
  output := rfl
  constants := (constantsOf_undocumented _ entries).trans (constantsOf_undocumented _ entries).symm
  declared := by rw [declared_generatedOf, declared_generatedOf]
  code := by
    rw [code_generatedOf settings protos hn, code_generatedOf settings others hn,
      definitionLines_generatedOf, definitionLines_generatedOf]
  definitions := ⟨_, (code_generatedOf settings protos hn).symm⟩

-- Whatever the definitions are, a run comes to the same failure or to the same code.
theorem definitions_only_document {settings : Settings} {document : Document}
    (hn : ∀ entries, readDeclarations settings document = .ok entries →
      ∀ entry ∈ entries, IsIdentifierText entry.name.toList) (protos others : List Proto.File) :
    (∃ failure, compile settings document protos = .error failure ∧
      compile settings document others = .error failure) ∨
    ∃ generated other, compile settings document protos = .ok generated ∧
      compile settings document others = .ok other ∧ SameCode settings generated other := by
  have hprotos := compile_eq_map settings document protos
  have hothers := compile_eq_map settings document others
  cases haccepted : acceptedEntries settings document with
  | error failure =>
      rw [haccepted] at hprotos hothers
      exact .inl ⟨failure, hprotos, hothers⟩
  | ok entries =>
      rw [haccepted] at hprotos hothers
      have hentries := hn entries (readDeclarations_of_acceptedEntries haccepted)
      exact .inr ⟨_, _, hprotos, hothers, sameCode_generatedOf settings protos others hentries⟩

-- A definition source with a doc that would end its comment and go on with code
def closingSource : Proto.File where
  enums := [{
    name := "ResponseCodeEnum", doc := [], span := Span.point {}
    values := [{
      name := "BUSY", number := 12, span := Span.point {}
      doc := ["*/ Status.Busy = null; /*", "**//"] }] }]

theorem closing_source_only_documents :
    ∃ generated other, compile {} twoCodes [emptySource] = .ok generated ∧
      compile {} twoCodes [closingSource] = .ok other ∧
      generated.constants.map (·.doc) = [[], []] ∧
      other.constants.map (·.doc) = [[], ["*/ Status.Busy = null; /*", "**//"]] ∧
      SameCode {} generated other := by
  have hcompile (protos : List Proto.File) :
      compile {} twoCodes protos = .ok (generatedOf {} protos _) :=
    compile_eq_ok.mpr ⟨_, readDeclarations_twoCodes,
      fun _ column => by cases column <;> decide, rfl⟩
  have hn : ∀ entries, readDeclarations {} twoCodes = .ok entries →
      ∀ entry ∈ entries, IsIdentifierText entry.name.toList := by
    intro entries hentries
    obtain rfl := Except.ok.inj (readDeclarations_twoCodes.symm.trans hentries)
    refine List.forall_mem_cons.mpr ⟨?_, List.forall_mem_singleton.mpr ?_⟩
    · exact List.all_eq_true.mp (by decide)
    · exact List.all_eq_true.mp (by decide)
  rcases definitions_only_document hn [emptySource] [closingSource] with
    ⟨failure, hfailure, -⟩ | ⟨generated, other, hgenerated, hother, hsame⟩
  · exact absurd ((hcompile _).symm.trans hfailure) nofun
  · refine ⟨generated, other, hgenerated, hother, ?_, ?_, hsame⟩
    · obtain rfl := Except.ok.inj ((hcompile _).symm.trans hgenerated)
      decide +kernel
    · obtain rfl := Except.ok.inj ((hcompile _).symm.trans hother)
      decide +kernel

end Codebook
