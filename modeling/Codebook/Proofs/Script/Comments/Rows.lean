import Codebook.Proofs.Script.Comments
import Codebook.Proofs.Script.Marks

namespace Codebook.Script

open Codebook.Text Codebook.Proto

-- The rows of a class without its comments. Docs stay inside their comments, so what is left does
-- not depend on them.

theorem commented_commentRows {lines : List Row} (h : ∀ line ∈ lines, line.IsInner) :
    Commented (commentRows lines) := by
  have hopens : (row "/**").text.toList = '/' :: '*' :: ['*'] := rfl
  exact .comment hopens (IsInside.line (by decide)) h rfl .nil

theorem commented_braced {head : String} {rows : List Row}
    (hh : (row (head ++ " \x7b")).isCode) (hr : Commented rows) : Commented (braced head rows) :=
  .code hh (hr.indented.append (.code (by decide) .nil))

-- A row that begins with a star. The text is given by its characters, so that a long literal
-- matches without being spelled out.
theorem isInner_star {rest : List Char} (hs : rest.head? ≠ some '/')
    (h : IsInside (rest ++ ['\n'])) :
    (row (String.ofList (' ' :: '*' :: rest))).IsInner where
  notCode := by simp [Row.isCode, isCode, row, isBlank]
  inside := by
    have hstar : IsInside ('*' :: (rest ++ ['\n'])) := by
      refine IsInside.cons (fun more hp => ?_) h
      have hslash := (List.cons_prefix_cons.mp hp).2
      cases rest with
      | nil => simp at hslash
      | cons c rest =>
          obtain ⟨rfl, -⟩ := List.cons_prefix_cons.mp hslash
          exact hs rfl
    simpa [row] using IsInside.cons (by simp) hstar

theorem isInner_plain {rest : List Char} (h : '*' ∉ rest ∧ rest.head? ≠ some '/') :
    (row (String.ofList (' ' :: '*' :: rest))).IsInner :=
  isInner_star h.2 (IsInside.of_notMem (by simpa using h.1))

theorem isInner_append {rest : List Char} {text : String} (hs : rest.head? = some ' ')
    (h : IsInside (rest ++ (text.toList ++ ['\n']))) :
    (row (String.ofList (' ' :: '*' :: rest) ++ text)).IsInner := by
  have hrow : String.ofList (' ' :: '*' :: rest) ++ text
      = String.ofList (' ' :: '*' :: (rest ++ text.toList)) := by
    simp [← String.toList_inj]
  rw [hrow]
  exact isInner_star (by simp [hs]) (by rwa [List.append_assoc])

theorem head?_withoutClose (text : List Char) : (withoutClose text).head? = text.head? := by
  fun_cases withoutClose text <;> rfl

-- No comment ends in the line of a doc.
theorem isInside_withoutClose (text : List Char) : IsInside (withoutClose text ++ ['\n']) := by
  fun_induction withoutClose text with
  | case1 => exact IsInside.of_notMem (by decide)
  | case2 rest ih =>
      exact IsInside.cons (by simp) (IsInside.cons (by simp) (IsInside.cons (by simp) ih))
  | case3 c rest hclose ih =>
      refine IsInside.cons (fun more hp => ?_) ih
      obtain ⟨hstar, behind, hbehind⟩ := List.cons_prefix_cons.mp hp
      have hhead := congrArg List.head? hbehind
      have hrest : rest.head? = some '/' := by
        rw [← head?_withoutClose]
        cases hw : withoutClose rest with
        | nil => simp [hw] at hhead
        | cons d more => simpa [hw, eq_comm] using hhead
      obtain ⟨more, hmore⟩ := List.head?_eq_some_iff.mp hrest
      exact hclose more hstar.symm hmore

theorem toList_docRow {text : String} (hne : text ≠ "") :
    (docRow text).text.toList = ' ' :: '*' :: ' ' :: withoutClose text.toList := by
  have hstar : " * ".toList = [' ', '*', ' '] := by decide
  rw [docRow, if_neg (by simpa using hne), row, String.toList_append, hstar, String.toList_ofList]
  rfl

theorem isInner_docRow (text : String) : (docRow text).IsInner := by
  unfold docRow
  split
  · exact isInner_plain (by decide)
  · have hspace : IsInside [' '] := IsInside.of_notMem (by decide)
    have hrow := hspace.append (isInside_withoutClose text.toList)
    rw [← String.toList_ofList (l := withoutClose text.toList)] at hrow
    exact isInner_append rfl hrow

theorem isInner_of_mem_docRow {doc : List String} : ∀ line ∈ doc.map docRow, line.IsInner := by
  intro line hm
  obtain ⟨text, -, rfl⟩ := List.mem_map.mp hm
  exact isInner_docRow text

theorem commented_docRows (doc : List String) : Commented (docRows doc) := by
  unfold docRows
  split
  · exact .nil
  · exact commented_commentRows isInner_of_mem_docRow

theorem filter_isCode_docRows (doc : List String) : (docRows doc).filter Row.isCode = [] := by
  unfold docRows
  split
  · rfl
  · have hlines : (doc.map docRow).filter Row.isCode = [] :=
      List.filter_eq_nil_iff.mpr fun line hm => by simp [(isInner_of_mem_docRow line hm).notCode]
    have hopens : ¬ (row "/**").isCode := by decide
    have hcloses : ¬ (row " */").isCode := by decide
    rw [commentRows, List.filter_append, List.filter_cons_of_neg hopens, hlines,
      List.filter_cons_of_neg hcloses]
    rfl

theorem commented_licenseRows : Commented licenseRows := by
  have hopens : (row "/*-").text.toList = '/' :: '*' :: ['-'] := rfl
  have hsplit : licenseRows = row "/*-" :: (licenseRows.tail.dropLast ++ [row " */"]) := rfl
  rw [hsplit]
  refine .comment hopens (IsInside.of_notMem (by decide)) ?_ rfl .nil
  repeat refine List.forall_mem_cons.mpr ⟨isInner_plain (by decide), ?_⟩
  exact List.forall_mem_nil _

theorem commented_constructorRows : Commented constructorRows := by
  refine (commented_commentRows ?_).append (commented_braced (by decide) ?_)
  · simp only [List.forall_mem_cons]
    exact ⟨isInner_plain (by decide), isInner_plain (by decide), isInner_plain (by decide),
      List.forall_mem_nil _⟩
  · have hremark : IsInside ('*' :: " @readonly ".toList) :=
      IsInside.cons (by simp) (IsInside.of_notMem (by decide))
    exact .remark rfl hremark (.code (by decide) (.blank rfl (.code (by decide) .nil)))

theorem IsIdentifierText.isUnbroken {text : List Char} (h : IsIdentifierText text) :
    isUnbroken text :=
  isUnbroken_of_notMem (fun hm => (no_sign_of_inWord (h _ hm)).2.1 rfl)
    (fun hm => (no_sign_of_inWord (h _ hm)).2.2.2 rfl)

theorem IsIdentifierText.no_star {text : List Char} (h : IsIdentifierText text) : '*' ∉ text :=
  fun hm => (no_sign_of_inWord (h _ hm)).2.2.1 rfl

theorem isUnbroken_memberText (style : ClassStyle) {name : String}
    (h : IsIdentifierText name.toList) : isUnbroken (memberText style name) := by
  have hsign : ∀ c, IsSign c → inWord c = false → c ∉ memberText style name :=
    fun c hs hw hc => absurd (h c (mem_of_mem_memberName hc hs)) (by simp [hw])
  exact isUnbroken_of_notMem (hsign '/' ⟨by decide, by decide⟩ (by decide))
    (hsign '\n' ⟨by decide, by decide⟩ (by decide))

theorem isUnbroken_toString (n : Int) : isUnbroken (toString n).toList :=
  isUnbroken_of_notMem (fun hc => absurd (Number.mem_toString hc) (by decide))
    (no_lineFeed_toString n)

-- The names that a class is made from are identifiers.

structure ClassStyle.HasIdentifiers (style : ClassStyle) : Prop where
  className : IsIdentifierText style.className.toList
  enumName : IsIdentifierText style.enumName.toList

structure ClassModel.HasIdentifiers (model : ClassModel) : Prop where
  named : ∀ pair ∈ model.toName.names.pairs, IsIdentifierText pair.2.toList
  coded : ∀ pair ∈ model.fromCode.names.pairs, IsIdentifierText pair.2.toList
  numeral : ∀ pair ∈ model.fromCode.names.pairs, ∃ n : Int, pair.1 = toString n
  constant : ∀ constant ∈ model.constants, IsIdentifierText constant.name.toList

-- The rows in front of the definitions
def headRows (style : ClassStyle) (model : ClassModel) : List Row :=
  (if style.license then licenseRows ++ [blank] else [])
    ++ typedefRows style ++ blank :: classRows style model

theorem scriptRows_eq (style : ClassStyle) (model : ClassModel) :
    scriptRows style model
      = headRows style model ++ model.constants.flatMap (constantRows style) := rfl

section

variable {style : ClassStyle} {model : ClassModel} (hs : style.HasIdentifiers)

include hs

theorem commented_typedefRows : Commented (typedefRows style) := by
  have henum := hs.enumName.no_star
  refine commented_commentRows ?_
  simp only [List.forall_mem_cons, String.append_assoc]
  refine ⟨isInner_plain (by decide), isInner_append rfl (IsInside.of_notMem ?_),
    List.forall_mem_nil _⟩
  simp [henum]

theorem commented_valueOfRows : Commented (valueOfRows style) := by
  have henum := hs.enumName.no_star
  refine (commented_commentRows ?_).append
    (commented_braced (by decide) (.code (by decide) .nil))
  simp only [List.forall_mem_cons, String.append_assoc]
  refine ⟨isInner_append rfl (IsInside.of_notMem ?_), List.forall_mem_nil _⟩
  simp [henum]

theorem isCode_nameCase {name : String} (hn : IsIdentifierText name.toList)
    (lines : Dictionary String Nat) (key : String) :
    ∀ row ∈ nameCase style lines key name, row.isCode := by
  have hclass := hs.className.isUnbroken
  have hmember := isUnbroken_memberText style hn
  have hname := hn.isUnbroken
  have hlabel : isCode (nameLabel style name) := by
    unfold nameLabel
    simp [isCode, isBlank, hclass, hmember]
  have hanswer : isCode (nameAnswer name) := by
    unfold nameAnswer
    simp [isCode, isBlank, hname]
  exact forall_text_nameCase (P := fun text => isCode text) hlabel hanswer lines key

theorem isCode_codeCase {name : String} (hn : IsIdentifierText name.toList)
    (lines : Dictionary String Nat) (n : Int) :
    ∀ row ∈ codeCase style lines (toString n) name, row.isCode := by
  have hclass := hs.className.isUnbroken
  have hmember := isUnbroken_memberText style hn
  have hcode : isUnbroken n.repr.toList := isUnbroken_toString n
  have hlabel : isCode (codeLabel (toString n)) := by
    unfold codeLabel
    simp [isCode, isBlank, hcode]
  have hanswer : isCode (codeAnswer style name) := by
    unfold codeAnswer
    simp [isCode, isBlank, hclass, hmember]
  exact forall_text_codeCase (P := fun text => isCode text) hlabel hanswer lines

theorem isCode_definitionRow {constant : Constant}
    (hn : IsIdentifierText constant.name.toList) : (definitionRow style constant).isCode := by
  have hclass := hs.className.isUnbroken
  have hmember := isUnbroken_memberText style hn
  have hcode : isUnbroken constant.number.repr.toList := isUnbroken_toString constant.number
  have hunbroken : isUnbroken (definitionLine style constant) := by
    unfold definitionLine
    simp [hclass, hmember, hcode]
  have hhead : (definitionLine style constant).head?.any (!isBlank ·) := by
    unfold definitionLine
    cases hname : style.className.toList with
    | nil => simp [isBlank]
    | cons c rest =>
        obtain ⟨hblank, -⟩ := no_sign_of_inWord (hs.className c (by simp [hname]))
        simp [hblank]
  rw [Row.isCode, toList_definitionRow, isCode, hunbroken, hhead, Bool.and_self]

theorem commented_toStringRows (hm : model.HasIdentifiers) :
    Commented (toStringRows style model) := by
  refine (commented_commentRows ?_).append
    (commented_braced (by decide) (commented_braced (by decide) ?_))
  · exact List.forall_mem_cons.mpr ⟨isInner_plain (by decide), List.forall_mem_nil _⟩
  · refine Commented.append (Commented.flatMap fun pair hpair => ?_)
      (.code (by decide) (.code (by decide) .nil))
    exact commented_of_code (isCode_nameCase hs (hm.named pair hpair) _ pair.1)

theorem commented_fromCodeRows (hm : model.HasIdentifiers) :
    Commented (fromCodeRows style model) := by
  have hclass := hs.className.no_star
  have hfault : (row ("`(BUG) " ++ style.className
      ++ ".fromCode() does not handle code: $\x7bcode\x7d`")).isCode := by
    simp [Row.isCode, isCode, row, isBlank, hs.className.isUnbroken]
  refine (commented_commentRows ?_).append
    (commented_braced (by decide) (commented_braced (by decide) ?_))
  · simp only [List.forall_mem_cons, String.append_assoc]
    refine ⟨isInner_plain (by decide), isInner_plain (by decide),
      isInner_append rfl (IsInside.of_notMem ?_), List.forall_mem_nil _⟩
    simp [hclass]
  · refine Commented.append (Commented.flatMap fun pair hpair => ?_)
      (.code (by decide) (.code (by decide) (.code hfault (.code (by decide) .nil))))
    obtain ⟨n, hn⟩ := hm.numeral pair hpair
    have hcase := isCode_codeCase hs (hm.coded pair hpair) (declaredLines model.constants) n
    rw [← hn] at hcase
    exact commented_of_code hcase

theorem commented_classRows (hm : model.HasIdentifiers) : Commented (classRows style model) := by
  have hclass : (row ("export default class " ++ style.className ++ " \x7b")).isCode := by
    simp [Row.isCode, isCode, row, isBlank, hs.className.isUnbroken]
  have htoString : Commented (blank :: toStringRows style model) :=
    .blank rfl (commented_toStringRows hs hm)
  have hfromCode : Commented (blank :: fromCodeRows style model) :=
    .blank rfl (commented_fromCodeRows hs hm)
  have hvalueOf : Commented (blank :: valueOfRows style) := .blank rfl (commented_valueOfRows hs)
  exact commented_braced hclass
    (((commented_constructorRows.append htoString).append hfromCode).append hvalueOf)

theorem commented_headRows (hm : model.HasIdentifiers) : Commented (headRows style model) := by
  have hlicense : Commented (if style.license then licenseRows ++ [blank] else []) := by
    split
    · exact commented_licenseRows.append (.blank rfl .nil)
    · exact .nil
  exact (hlicense.append (commented_typedefRows hs)).append (.blank rfl (commented_classRows hs hm))

theorem commented_constantRows {constant : Constant}
    (hn : IsIdentifierText constant.name.toList) : Commented (constantRows style constant) :=
  .blank rfl ((commented_docRows constant.doc).append (.code (isCode_definitionRow hs hn) .nil))

theorem commented_scriptRows (hm : model.HasIdentifiers) :
    Commented (scriptRows style model) :=
  (commented_headRows hs hm).append
    (.flatMap fun constant hc => commented_constantRows hs (hm.constant constant hc))

theorem filter_isCode_constantRows {constant : Constant}
    (hn : IsIdentifierText constant.name.toList) :
    (constantRows style constant).filter Row.isCode = [definitionRow style constant] := by
  have hblank : ¬ blank.isCode := by decide
  rw [constantRows, List.cons_append, List.filter_cons_of_neg hblank, List.filter_append,
    filter_isCode_docRows, List.filter_cons_of_pos (isCode_definitionRow hs hn)]
  rfl

-- The code of a class is what stands in front of the definitions and the definitions.
theorem codeLines_classPage (hm : model.HasIdentifiers) :
    codeLines (classPage style model).text.toList
      = ((headRows style model).filter Row.isCode).map Row.written
        ++ model.constants.map (definitionLine style) := by
  have hdefinitions : (model.constants.flatMap (constantRows style)).filter Row.isCode
      = model.constants.map (definitionRow style) := by
    rw [List.filter_flatMap, List.map_eq_flatMap]
    exact List.flatMap_congr fun constant hc => filter_isCode_constantRows hs (hm.constant _ hc)
  have hwritten (constant : Constant) :
      (definitionRow style constant).written = definitionLine style constant := by
    rw [← toList_definitionRow]
    simp [Row.written, definitionRow]
  rw [classPage, codeLines_ofRows (commented_scriptRows hs hm), scriptRows_eq, List.filter_append,
    hdefinitions, List.map_append, List.map_map]
  simp [Function.comp_def, hwritten]

end

-- A class without its docs

def Constant.undocumented (constant : Constant) : Constant := { constant with doc := [] }

def ClassModel.undocumented (model : ClassModel) : ClassModel :=
  { model with constants := model.constants.map Constant.undocumented }

theorem declaredLines_undocumented (constants : List Constant) :
    declaredLines (constants.map Constant.undocumented) = declaredLines constants := by
  rw [declaredLines, List.map_map]
  rfl

theorem headRows_undocumented (style : ClassStyle) (model : ClassModel) :
    headRows style model.undocumented = headRows style model := by
  simp only [headRows, classRows, toStringRows, fromCodeRows, ClassModel.undocumented,
    declaredLines_undocumented]

theorem tracedLines_undocumented (style : ClassStyle) (model : ClassModel) :
    tracedLines style model.undocumented = tracedLines style model := by
  simp only [tracedLines, tracedNames, tracedCodes, tracedDefinitions, ClassModel.undocumented,
    declaredLines_undocumented, List.map_map]
  rfl

end Codebook.Script
