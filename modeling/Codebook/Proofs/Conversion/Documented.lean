import Codebook.Proofs.Conversion.NoInput
import Codebook.Proofs.Proto.Normal
import Mathlib.Data.List.Chain

namespace Codebook

open Declarations Proto Script Text

-- What the form of the docs means for the class that is generated: a comment without text is
-- written exactly for the docs that are not in normal form.

-- A doc in which something can be seen
def hasText (doc : List String) : Bool := doc.any fun line => line.toList.any fun c => !isBlank c

-- A doc comment in which nothing stands, by its lines without the blanks around them
def IsEmptyComment (lines : List String) : Prop :=
  ∃ inner, lines = "/**" :: (inner ++ ["*/"]) ∧ ∀ line ∈ inner, line = "*"

def HasEmptyComment (code : String) : Prop :=
  ∃ lines, lines <:+: (sourceLines code).map Line.text ∧ IsEmptyComment lines

def Script.Row.line (row : Row) : String := String.ofList (trim row.text.toList)

-- There is text in the line behind every line that opens a doc comment.
structure IsFilled (lines : List String) : Prop where
  chain : lines.IsChain fun line next => line = "/**" → next ≠ "*" ∧ next ≠ "*/"
  last : lines.getLast? ≠ some "/**"

instance (lines : List String) : Decidable (IsFilled lines) :=
  decidable_of_iff ((lines.IsChain fun line next => line = "/**" → next ≠ "*" ∧ next ≠ "*/") ∧
    lines.getLast? ≠ some "/**")
    ⟨fun ⟨chain, last⟩ => ⟨chain, last⟩, fun h => ⟨h.chain, h.last⟩⟩

theorem IsFilled.append {front behind : List String} (hf : IsFilled front)
    (hb : IsFilled behind) : IsFilled (front ++ behind) where
  chain := by
    refine List.isChain_append.mpr ⟨hf.chain, hb.chain, fun line hl next _ he => ?_⟩
    exact absurd (he ▸ Option.mem_def.mp hl) hf.last
  last := by
    rw [List.getLast?_append]
    cases hlast : behind.getLast? with
    | none => exact hf.last
    | some line => exact fun he => hb.last (hlast.trans he)

theorem IsFilled.opening {line : String} {rest : List String} (h : IsFilled (line :: rest))
    (hl : line ≠ "*" ∧ line ≠ "*/") : IsFilled ("/**" :: line :: rest) where
  chain := List.isChain_cons_cons.mpr ⟨fun _ => hl, h.chain⟩
  last := by
    rw [List.getLast?_cons_cons]
    exact h.last

theorem isFilled_nil : IsFilled [] := ⟨.nil, nofun⟩

theorem isFilled_of_forall {lines : List String} (h : ∀ line ∈ lines, line ≠ "/**") :
    IsFilled lines where
  chain := by
    induction lines with
    | nil => exact .nil
    | cons line rest ih =>
        obtain ⟨hline, hrest⟩ := List.forall_mem_cons.mp h
        exact List.isChain_cons.mpr ⟨fun _ _ he => absurd he hline, ih hrest⟩
  last he := h _ (List.mem_of_getLast? he) rfl

theorem isFilled_flatMap {α : Type} {items : List α} {f : α → List String}
    (h : ∀ item ∈ items, IsFilled (f item)) : IsFilled (items.flatMap f) := by
  induction items with
  | nil => exact isFilled_nil
  | cons item rest ih =>
      obtain ⟨hitem, hrest⟩ := List.forall_mem_cons.mp h
      rw [List.flatMap_cons]
      exact hitem.append (ih hrest)

theorem IsFilled.no_empty {lines comment : List String} (h : IsFilled lines)
    (hc : comment <:+: lines) : ¬ IsEmptyComment comment := by
  rintro ⟨inner, rfl, hinner⟩
  have hchain := h.chain.infix hc
  cases inner with
  | nil => exact (List.isChain_cons_cons.mp hchain).1 rfl |>.2 rfl
  | cons line rest =>
      obtain rfl := (List.forall_mem_cons.mp hinner).1
      exact (List.isChain_cons_cons.mp hchain).1 rfl |>.1 rfl

theorem map_line_classPage {style : ClassStyle} {model : ClassModel} (hs : style.IsPlain)
    (hm : model.IsPlain) : (sourceLines (classPage style model).text).map Line.text
      = (flatRows style model).map Row.line := by
  rw [map_text_sourceLines_classPage hs hm, List.map_map]
  rfl

-- A row that begins with a star opens no comment.
theorem line_star {row : Row} {rest : List Char} (h : row.text.toList = ' ' :: '*' :: rest) :
    row.line ≠ "/**" := by
  rw [Row.line, h, trim_cons_blank (by decide), trim_cons (by decide)]
  intro he
  have hchars := congrArg String.toList he
  rw [String.toList_ofList] at hchars
  exact absurd (List.cons.inj hchars).1 (by decide)

theorem line_ofList_star (rest : List Char) :
    (row (String.ofList (' ' :: '*' :: rest))).line ≠ "/**" := line_star String.toList_ofList

-- A text with a character that does not stand in the line
theorem ofList_trim_ne {text : List Char} {c : Char} {line : String} (hc : c ∈ text)
    (hb : isBlank c = false) (hl : c ∉ line.toList) : String.ofList (trim text) ≠ line := by
  rintro rfl
  rw [String.toList_ofList] at hl
  have hin : [c] <:+: trim text :=
    infix_trim (by simpa using hb) (by simpa using hb) ((List.singleton_infix_iff c _).mpr hc)
  exact hl ((List.singleton_infix_iff c _).mp hin)

theorem isFilled_licenseRows : IsFilled ((licenseRows ++ [blank]).map Row.line) := by
  refine isFilled_of_forall (List.forall_mem_map.mpr (List.forall_mem_append.mpr ⟨?_, by decide⟩))
  refine List.forall_mem_cons.mpr ⟨by decide, ?_⟩
  repeat refine List.forall_mem_cons.mpr ⟨line_ofList_star _, ?_⟩
  exact List.forall_mem_nil _

theorem isFilled_openingRows (settings : Settings) :
    IsFilled ((openingRows settings.style).map Row.line) := by
  have hlicense :
      IsFilled ((if settings.license then licenseRows ++ [blank] else []).map Row.line) := by
    split
    · exact isFilled_licenseRows
    · exact isFilled_nil
  have hrows : ∀ target : Target,
      IsFilled ((openingRows ⟨target.className, target.enumName, .raw, false⟩).map Row.line) := by
    rintro (_ | _) <;> decide +kernel
  have hrest := hrows settings.target
  unfold openingRows at hrest ⊢
  simp only [List.append_assoc, List.map_append] at hrest ⊢
  exact hlicense.append hrest

theorem isFilled_betweenRows (settings : Settings) :
    IsFilled ((betweenRows settings.style).map Row.line) := by
  have hrows : ∀ target : Target,
      IsFilled ((betweenRows ⟨target.className, target.enumName, .raw, false⟩).map Row.line) := by
    rintro (_ | _) <;> decide +kernel
  exact hrows settings.target

theorem isFilled_closingRows (settings : Settings) :
    IsFilled ((closingRows settings.style).map Row.line) := by
  have hrows : ∀ target : Target,
      IsFilled ((closingRows ⟨target.className, target.enumName, .raw, false⟩).map Row.line) := by
    rintro (_ | _) <;> decide +kernel
  exact hrows settings.target

theorem isFilled_nameCase (style : ClassStyle) (lines : Dictionary String Nat)
    (key name : String) : IsFilled ((nameCase style lines key name).map Row.line) := by
  refine isFilled_of_forall (List.forall_mem_map.mpr ?_)
  refine forall_text_nameCase (P := fun text => String.ofList (trim text) ≠ "/**") ?_ ?_ lines key
  · exact ofList_trim_ne (c := 'a') (List.mem_append_left _ (by decide)) (by decide) (by decide)
  · exact ofList_trim_ne (c := 'r') (List.mem_append_left _ (by decide)) (by decide) (by decide)

theorem isFilled_codeCase (style : ClassStyle) (lines : Dictionary String Nat)
    (code name : String) : IsFilled ((codeCase style lines code name).map Row.line) := by
  refine isFilled_of_forall (List.forall_mem_map.mpr ?_)
  refine forall_text_codeCase (P := fun text => String.ofList (trim text) ≠ "/**") ?_ ?_ lines
  · exact ofList_trim_ne (c := 'a') (List.mem_append_left _ (by decide)) (by decide) (by decide)
  · exact ofList_trim_ne (c := 'r') (List.mem_append_left _ (by decide)) (by decide) (by decide)

-- The rows of a doc

theorem line_docRow (text : String) : (docRow text).line ≠ "/**" := by
  by_cases hempty : text = ""
  · subst hempty
    decide
  · exact line_star (toList_docRow hempty)

-- A trimmed line begins with what can be seen.
theorem exists_head_of_trimmed {text : String} (ht : trim text.toList = text.toList)
    (hne : text ≠ "") : ∃ c rest, text.toList = c :: rest ∧ isBlank c = false := by
  cases htext : text.toList with
  | nil => exact absurd (String.toList_eq_nil_iff.mp htext) hne
  | cons c rest =>
      refine ⟨c, rest, rfl, Bool.eq_false_iff.mpr fun hb => ?_⟩
      rw [htext, trim_cons_blank hb] at ht
      have hlength := (infix_of_trim rest).length_le
      rw [ht, List.length_cons] at hlength
      omega

theorem line_docRow_of_trimmed {text : String} (ht : trim text.toList = text.toList)
    (hne : text ≠ "") : (docRow text).line ≠ "*" ∧ (docRow text).line ≠ "*/" := by
  obtain ⟨c, rest, htext, hc⟩ := exists_head_of_trimmed ht hne
  obtain ⟨more, hmore⟩ : ∃ more, withoutClose text.toList = c :: more := by
    have hhead := head?_withoutClose text.toList
    rw [htext, List.head?_cons] at hhead
    exact List.head?_eq_some_iff.mp (htext ▸ hhead)
  have hin : ['*', ' ', c] <:+: trim (docRow text).text.toList := by
    refine infix_trim (by simp [show isBlank '*' = false by decide]) (by simpa using hc) ?_
    rw [toList_docRow hne, hmore]
    exact ⟨[' '], more, rfl⟩
  have hlong : 3 ≤ (docRow text).line.toList.length := by
    rw [Row.line, String.toList_ofList]
    exact hin.length_le
  constructor <;> intro he <;> rw [he] at hlong <;> exact absurd hlong (by decide)

theorem isFilled_constantRows (style : ClassStyle) {constant : Constant}
    (hd : IsNormalDoc constant.doc) : IsFilled ((constantRows style constant).map Row.line) := by
  have hblank : blank.line ≠ "/**" := by decide
  have hdefinition : (definitionRow style constant).line ≠ "/**" := by
    refine ofList_trim_ne (c := '=') ?_ (by decide) (by decide)
    rw [toList_definitionRow, definitionLine]
    simp
  unfold constantRows docRows
  cases hdoc : constant.doc with
  | nil =>
      refine isFilled_of_forall (List.forall_mem_map.mpr ?_)
      exact List.forall_mem_cons.mpr ⟨hblank, List.forall_mem_singleton.mpr hdefinition⟩
  | cons first rest =>
      rw [hdoc] at hd
      have hfirst := line_docRow_of_trimmed (hd.trimmed first List.mem_cons_self)
        fun he => hd.head (congrArg some he)
      have hrest : IsFilled ((docRow first :: (rest.map docRow
          ++ [row " */", definitionRow style constant])).map Row.line) := by
        refine isFilled_of_forall (List.forall_mem_map.mpr ?_)
        refine List.forall_mem_cons.mpr ⟨line_docRow first, List.forall_mem_append.mpr ⟨?_, ?_⟩⟩
        · exact List.forall_mem_map.mpr fun text _ => line_docRow text
        · exact List.forall_mem_cons.mpr ⟨by decide, List.forall_mem_singleton.mpr hdefinition⟩
      have hfront : IsFilled [blank.line] :=
        isFilled_of_forall (List.forall_mem_singleton.mpr hblank)
      have hopening : (row "/**").line = "/**" := by decide
      have hfilled := hfront.append (hrest.opening hfirst)
      rw [← hopening] at hfilled
      simpa [commentRows] using hfilled

theorem infix_constantRows (style : ClassStyle) {constant : Constant}
    (hd : constant.doc = [""]) :
    ["/**", "*", "*/"] <:+: (constantRows style constant).map Row.line := by
  have hlines : (docRows [""]).map Row.line = ["/**", "*", "*/"] := by decide
  rw [constantRows, hd, List.cons_append, List.map_cons, List.map_append, hlines]
  exact ⟨[blank.line], [(definitionRow style constant).line], rfl⟩

theorem isFilled_flatRows (settings : Settings) {model : ClassModel}
    (hd : ∀ constant ∈ model.constants, IsNormalDoc constant.doc) :
    IsFilled ((flatRows settings.style model).map Row.line) := by
  simp only [flatRows, List.map_append, List.map_flatMap]
  refine ((((IsFilled.append ?_ ?_).append ?_).append ?_).append ?_).append ?_
  · exact isFilled_openingRows settings
  · exact isFilled_flatMap fun pair _ => isFilled_nameCase settings.style _ pair.1 pair.2
  · exact isFilled_betweenRows settings
  · exact isFilled_flatMap fun pair _ => isFilled_codeCase settings.style _ pair.1 pair.2
  · exact isFilled_closingRows settings
  · exact isFilled_flatMap fun constant hc => isFilled_constantRows settings.style (hd constant hc)

-- A class has a comment without text exactly if one of its docs is an empty line.
theorem hasEmptyComment_classPage {settings : Settings} {model : ClassModel} (hm : model.IsPlain)
    (hd : ∀ constant ∈ model.constants, IsNormalDoc constant.doc ∨ constant.doc = [""]) :
    HasEmptyComment (classPage settings.style model).text ↔
      ∃ constant ∈ model.constants, constant.doc = [""] := by
  unfold HasEmptyComment
  rw [map_line_classPage (isPlain_style settings) hm]
  constructor
  · rintro ⟨comment, hcomment, hempty⟩
    by_contra hno
    have hnormal : ∀ constant ∈ model.constants, IsNormalDoc constant.doc := fun constant hc =>
      (hd constant hc).resolve_right fun he => hno ⟨constant, hc, he⟩
    exact (isFilled_flatRows settings hnormal).no_empty hcomment hempty
  · rintro ⟨constant, hc, he⟩
    have hrows : constantRows settings.style constant
        <:+: model.constants.flatMap (constantRows settings.style) := by
      rw [List.flatMap_def]
      exact List.infix_of_mem_flatten (List.mem_map_of_mem hc)
    have hflat : constantRows settings.style constant <:+: flatRows settings.style model :=
      hrows.trans (List.suffix_append _ _).isInfix
    exact ⟨_, (infix_constantRows settings.style he).trans (hflat.map Row.line), ["*"], rfl,
      List.forall_mem_singleton.mpr rfl⟩

-- The docs of constants

theorem allDocs_normal (source : String) (file : Proto.File) (h : Proto.parse source = .ok file) :
    file.AllDocs fun doc => IsNormalDoc doc ∨ doc = [""] :=
  allDocs_parse (.inl isNormalDoc_nil) (fun body => .inl (isNormalDoc_docLines body))
    (fun _ hrun => isNormalDoc_remarkText hrun) h

theorem hasText_of_isNormalDoc {doc : List String} (h : IsNormalDoc doc) :
    hasText doc = !doc.isEmpty := by
  cases doc with
  | nil => rfl
  | cons first rest =>
      obtain ⟨c, more, htext, hc⟩ := exists_head_of_trimmed (h.trimmed first List.mem_cons_self)
        fun he => h.head (congrArg some he)
      simp [hasText, htext, hc]

theorem countP_documented {constants : List Constant}
    (hd : ∀ constant ∈ constants, IsNormalDoc constant.doc ∨ constant.doc = [""]) :
    constants.countP (fun constant => !constant.doc.isEmpty)
      = constants.countP (fun constant => hasText constant.doc)
        + constants.countP (fun constant => constant.doc = [""]) := by
  induction constants with
  | nil => rfl
  | cons constant rest ih =>
      obtain ⟨hconstant, hrest⟩ := List.forall_mem_cons.mp hd
      rw [List.countP_cons, List.countP_cons, List.countP_cons, ih hrest]
      rcases hconstant with hnormal | hempty
      · have hne : constant.doc ≠ [""] := fun he => hnormal.head (by rw [he]; rfl)
        rw [hasText_of_isNormalDoc hnormal, decide_eq_false hne, if_neg Bool.false_ne_true]
        omega
      · have hnone : hasText [""] = false := by decide
        rw [hempty, hnone, if_neg Bool.false_ne_true, if_pos (by decide), if_pos (by decide)]
        omega

-- The docs of an accepted source are in normal form but where an empty remark gives the doc of a
-- value. A constant with such a doc counts as documented with nothing to be seen, and it is what
-- gives the class a comment without text.
theorem docs_normal_unless_empty (source : String) (settings : Settings) (document : Document)
    (protos : List Proto.File) :
    (∀ file, Proto.parse source = .ok file → ∃ stream, tokenize source = .ok stream ∧
      (∀ message ∈ file.everyMessage, IsNormalDoc message.doc) ∧
      ∀ enumeration ∈ file.everyEnum, IsNormalDoc enumeration.doc ∧
        ∀ value ∈ enumeration.values, value.IsNormalUnlessEmpty stream.tokens) ∧
    ∀ generated, Proto.AreParsed protos → compile settings document protos = .ok generated →
      (∀ constant ∈ generated.constants, IsNormalDoc constant.doc ∨ constant.doc = [""] ∧
        ∃ enumeration ∈ definition? settings protos, ∃ value ∈ enumeration.values,
          value.name = constant.name ∧ value.doc = [""]) ∧
      generated.documented = generated.constants.countP (fun constant => hasText constant.doc)
        + generated.constants.countP (fun constant => constant.doc = [""]) ∧
      (HasEmptyComment generated.code ↔ ∃ constant ∈ generated.constants, constant.doc = [""]) := by
  refine ⟨fun file => normal_of_parse, fun generated hp h => ?_⟩
  obtain ⟨entries, hentries, -, rfl⟩ := compile_eq_ok.mp h
  have hplain : (modelOf settings protos entries).IsPlain :=
    isPlain_modelOf hp (wellFormed_of_readDeclarations hentries)
  have hdocs : ∀ constant ∈ (modelOf settings protos entries).constants,
      IsNormalDoc constant.doc ∨ constant.doc = [""] := by
    intro constant hc
    obtain ⟨entry, -, rfl⟩ := (mem_constantsOf _ entries constant).mp hc
    exact doc_constantOf (P := fun doc => IsNormalDoc doc ∨ doc = [""]) (.inl isNormalDoc_nil)
      (allDocs_definition allDocs_normal hp settings) entry
  refine ⟨fun constant hc => ?_, countP_documented hdocs, hasEmptyComment_classPage hplain hdocs⟩
  refine (hdocs constant hc).imp_right fun he => ⟨he, ?_⟩
  obtain ⟨entry, -, rfl⟩ := (mem_constantsOf _ entries constant).mp hc
  rcases exists_of_doc_constantOf (definition? settings protos) entry with
    hnil | ⟨enumeration, hdefinition, value, hv, hname, hdoc⟩
  · rw [hnil] at he
    exact absurd he (by decide)
  · exact ⟨enumeration, hdefinition, value, hv, hname, hdoc.trans he⟩

-- A value with two bare slashes behind it
def slashedText : String := "enum ResponseCodeEnum \x7b\n  BUSY = 12; //\n\x7d\n"

def slashedSource : Proto.File where
  path := some "codes.proto"
  enums := [⟨"ResponseCodeEnum", [], [⟨"BUSY", 12, [""], ⟨⟨26, 1, 2⟩, ⟨36, 1, 12⟩⟩⟩],
    ⟨⟨0, 0, 0⟩, ⟨41, 2, 1⟩⟩⟩]

theorem parse_slashedText :
    ∃ file, Proto.parse slashedText = .ok file ∧ file.enums = slashedSource.enums ∧
      { file with path := slashedSource.path } = slashedSource := by
  have hread : (Proto.parse slashedText).toOption.map
      (fun file => (file.package, file.messages.length, file.enums))
        = some (none, 0, slashedSource.enums) := by
    decide +kernel
  obtain ⟨file, hfile, hparts⟩ := Option.map_eq_some_iff.mp hread
  have hparse := toOption_eq_some.mp hfile
  refine ⟨file, hparse, (Prod.mk.inj (Prod.mk.inj hparts).2).2, ?_⟩
  obtain ⟨path, package, messages, enums⟩ := file
  obtain ⟨rfl, hrest⟩ := Prod.mk.inj hparts
  obtain ⟨hmessages, rfl⟩ := Prod.mk.inj hrest
  obtain rfl := List.length_eq_zero_iff.mp hmessages
  rfl

theorem docs_empty_for_bare_slashes :
    (∃ stream file, tokenize slashedText = .ok stream ∧ Proto.parse slashedText = .ok file ∧
      ∃ enumeration ∈ file.everyEnum, ∃ value ∈ enumeration.values,
        value.IsNormalUnlessEmpty stream.tokens ∧ value.doc = [""] ∧ ¬ IsNormalDoc value.doc) ∧
    ∃ generated, compile {} twoCodes [slashedSource] = .ok generated ∧
      generated.constants.map (·.doc) = [[], [""]] ∧ generated.documented = 1 ∧
      generated.constants.countP (fun constant => hasText constant.doc) = 0 ∧
      HasEmptyComment generated.code := by
  obtain ⟨hparsed, hcompiled⟩ := docs_normal_unless_empty slashedText {} twoCodes [slashedSource]
  obtain ⟨file, hparse, henums, hsource⟩ := parse_slashedText
  constructor
  · obtain ⟨stream, hstream, -, hdocs⟩ := hparsed file hparse
    have he : ⟨"ResponseCodeEnum", [], [⟨"BUSY", 12, [""], ⟨⟨26, 1, 2⟩, ⟨36, 1, 12⟩⟩⟩],
        ⟨⟨0, 0, 0⟩, ⟨41, 2, 1⟩⟩⟩ ∈ file.everyEnum := by
      rw [File.everyEnum, henums]
      exact List.mem_cons_self
    exact ⟨stream, file, hstream, hparse, _, he, _, List.mem_cons_self,
      (hdocs _ he).2 _ List.mem_cons_self, rfl, by decide⟩
  · have hp : Proto.AreParsed [slashedSource] :=
      List.forall_mem_singleton.mpr ⟨_, file, hparse, hsource⟩
    have hcompile : compile {} twoCodes [slashedSource] = .ok (generatedOf {} [slashedSource] _) :=
      compile_eq_ok.mpr ⟨_, readDeclarations_twoCodes,
        fun _ column => by cases column <;> decide, rfl⟩
    obtain ⟨-, hcount, hempty⟩ := hcompiled _ hp hcompile
    refine ⟨_, hcompile, by decide +kernel, by decide +kernel, by decide +kernel, hempty.mpr ?_⟩
    exact ⟨⟨"BUSY", 12, [""], 2⟩, by decide +kernel, rfl⟩

end Codebook
