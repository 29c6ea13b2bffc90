import Codebook.Proofs.Conversion.Docs
import Codebook.Proofs.Declarations.Written
import Codebook.Proofs.Proto.Inside
import Codebook.Proofs.Proto.Truncated.Theorems
import Codebook.Proofs.Proto.Written.Reads

namespace Codebook

open Declarations Proto Script Text

-- The text of a class is no input of a run. No block of declarations is closed in it, and it is
-- not accepted as a source of definitions.

-- The lines of a page, without the blanks around them

theorem rows_writtenRows {rows : List Row} (h : ∀ row ∈ rows, '\n' ∉ row.text.toList) :
    Text.rows (writtenRows rows) = rows.map fun row => row.written ++ ['\n'] := by
  induction rows with
  | nil => rfl
  | cons row rest ih =>
      obtain ⟨hrow, hrest⟩ := List.forall_mem_cons.mp h
      obtain ⟨margin, hm, hwritten⟩ := row.exists_margin
      have hline : '\n' ∉ row.written := by
        rw [hwritten, List.mem_append, not_or]
        exact ⟨fun hfeed => absurd (hm _ hfeed) (by decide), hrow⟩
      have htext : writtenRows (row :: rest) = row.written ++ '\n' :: writtenRows rest := by
        simp [writtenRows]
      rw [htext, rows_append_lineFeed hline, ih hrest, List.map_cons]

theorem trim_written (row : Row) : trim (row.written ++ ['\n']) = trim row.text.toList := by
  obtain ⟨margin, hm, hwritten⟩ := row.exists_margin
  have hblanks : ∀ c ∈ margin, isBlank c := by
    intro c hc
    rw [hm c hc]
    decide
  have hfeed : ∀ c ∈ ['\n'], isBlank c := List.forall_mem_singleton.mpr (by decide)
  rw [hwritten, List.append_assoc]
  exact trim_margins hblanks hfeed row.text.toList

theorem map_text_sourceLines_classPage {style : ClassStyle} {model : ClassModel}
    (hs : style.IsPlain) (hm : model.IsPlain) :
    (sourceLines (classPage style model).text).map Line.text
      = ((flatRows style model).map fun row => row.text.toList).map
        fun text => String.ofList (trim text) := by
  have htexts : (scriptRows style model).map (fun row => row.text.toList)
      = (flatRows style model).map fun row => row.text.toList := by
    have h := congrArg (List.map String.toList) (map_text_scriptRows style model)
    rwa [List.map_map, List.map_map] at h
  rw [sourceLines, map_text_linesFrom, classPage, Page.toList_text_ofRows,
    rows_writtenRows (no_lineFeed_scriptRows hs hm), ← htexts, List.map_map, List.map_map]
  exact List.map_congr_left fun row _ => congrArg String.ofList (trim_written row)

-- The word that an enumeration begins with stands in no line in front of the definitions.

structure IsFree (text : String) : Prop where
  noWord : occursIn ['n', 'u', 'm', ' '] text.toList = false

theorem IsFree.not_opened {text : String} (h : IsFree text) (target : Target) :
    ¬ target.marker.toList <:+: text.toList := by
  intro hmarker
  have hword : ['n', 'u', 'm', ' '] <:+: target.marker.toList :=
    ⟨['e'], target.enumName.toList ++ [' ', '\x7b'], by simp [marker_eq]⟩
  have hno := h.noWord
  rw [occursIn_iff.mpr (hword.trans hmarker)] at hno
  exact absurd hno (by decide)

def AreFree (rows : List Row) : Prop := ∀ row ∈ rows, IsFree row.text

@[simp] theorem areFree_nil : AreFree [] := List.forall_mem_nil _

@[simp] theorem areFree_cons {row : Row} {rows : List Row} :
    AreFree (row :: rows) ↔ IsFree row.text ∧ AreFree rows :=
  List.forall_mem_cons

@[simp] theorem areFree_append {front behind : List Row} :
    AreFree (front ++ behind) ↔ AreFree front ∧ AreFree behind :=
  List.forall_mem_append

-- The text is given by its characters, so that a long literal matches without being spelled out.
theorem isFree_ofList {chars : List Char} (h : occursIn ['n', 'u', 'm', ' '] chars = false) :
    IsFree (String.ofList chars) :=
  ⟨by simpa using h⟩

theorem isFree_append {front behind : List Char}
    (h : occursIn ['n', 'u', 'm', ' '] (front ++ behind) = false) :
    IsFree (String.ofList front ++ String.ofList behind) :=
  ⟨by simpa using h⟩

theorem isFree_empty : IsFree "" := isFree_ofList rfl

theorem areFree_commentRows {lines : List Row} (h : AreFree lines) :
    AreFree (commentRows lines) := by
  simp only [commentRows, areFree_append, areFree_cons]
  exact ⟨⟨isFree_ofList (by decide), h⟩, isFree_ofList (by decide), areFree_nil⟩

theorem areFree_licenseRows : AreFree licenseRows := by
  repeat refine areFree_cons.mpr ⟨isFree_ofList (by decide), ?_⟩
  exact areFree_nil

theorem areFree_constructorRows : AreFree constructorRows := by
  refine areFree_append.mpr ⟨areFree_commentRows ?_, ?_⟩
  · simp only [areFree_cons]
    exact ⟨isFree_ofList (by decide), isFree_ofList (by decide), isFree_ofList (by decide),
      areFree_nil⟩
  · simp only [braced, indented, List.map, List.cons_append, List.nil_append, areFree_cons,
      areFree_nil, and_true]
    exact ⟨isFree_append (by decide), isFree_ofList (by decide), isFree_ofList (by decide),
      isFree_empty, isFree_ofList (by decide), isFree_ofList (by decide)⟩

theorem areFree_openingRows (settings : Settings) : AreFree (openingRows settings.style) := by
  have hlicense : AreFree (if settings.license then licenseRows ++ [blank] else []) := by
    split
    · exact areFree_append.mpr ⟨areFree_licenseRows, areFree_cons.mpr ⟨isFree_empty, areFree_nil⟩⟩
    · exact areFree_nil
  have htypedef : IsFree (" * @typedef \x7bimport(\"@hashgraph/proto\").proto."
      ++ settings.target.enumName ++ "\x7d HashgraphProto.proto."
      ++ settings.target.enumName) := by
    constructor
    cases settings.target <;> simp only [Target.enumName, String.toList_append,
      String.reduceToList, List.cons_append, List.nil_append] <;> decide
  have hclass : IsFree ("export default class " ++ settings.target.className ++ " \x7b") := by
    constructor
    cases settings.target <;> simp only [Target.className, String.toList_append,
      String.reduceToList, List.cons_append, List.nil_append] <;> decide
  simp only [openingRows, typedefRows, areFree_append, areFree_cons, Settings.style]
  refine ⟨⟨⟨⟨hlicense, areFree_commentRows ?_⟩, isFree_empty, hclass, areFree_constructorRows⟩,
    isFree_empty, areFree_commentRows ?_⟩, isFree_ofList (by decide), isFree_ofList (by decide),
    areFree_nil⟩
  · simp only [areFree_cons]
    exact ⟨isFree_ofList (by decide), htypedef, areFree_nil⟩
  · exact areFree_cons.mpr ⟨isFree_ofList (by decide), areFree_nil⟩

theorem areFree_betweenRows (settings : Settings) : AreFree (betweenRows settings.style) := by
  have hreturns : IsFree (" * @returns \x7b" ++ settings.target.className ++ "\x7d") := by
    constructor
    cases settings.target <;> simp only [Target.className, String.toList_append,
      String.reduceToList, List.cons_append, List.nil_append] <;> decide
  have hcomment : AreFree (commentRows [row " * @internal", row " * @param \x7bnumber\x7d code",
      row (" * @returns \x7b" ++ settings.target.className ++ "\x7d")]) := by
    apply areFree_commentRows
    simp only [areFree_cons]
    exact ⟨isFree_ofList (by decide), isFree_ofList (by decide), hreturns, areFree_nil⟩
  simp only [betweenRows, areFree_append, areFree_cons, areFree_nil, and_true, Settings.style]
  refine ⟨⟨?_, hcomment⟩, ?_⟩
  all_goals and_intros <;> exact isFree_ofList (by decide)

theorem areFree_closingRows (settings : Settings) : AreFree (closingRows settings.style) := by
  have hfault : IsFree ("`(BUG) " ++ settings.target.className
      ++ ".fromCode() does not handle code: $\x7bcode\x7d`") := by
    constructor
    cases settings.target <;> simp only [Target.className, String.toList_append,
      String.reduceToList, List.cons_append, List.nil_append] <;> decide
  have hreturns : IsFree (" * @returns \x7bHashgraphProto.proto." ++ settings.target.enumName
      ++ "\x7d") := by
    constructor
    cases settings.target <;> simp only [Target.enumName, String.toList_append,
      String.reduceToList, List.cons_append, List.nil_append] <;> decide
  have hcomment : AreFree (commentRows [row (" * @returns \x7bHashgraphProto.proto."
      ++ settings.target.enumName ++ "\x7d")]) :=
    areFree_commentRows (areFree_cons.mpr ⟨hreturns, areFree_nil⟩)
  simp only [closingRows, valueOfRows, braced, indented, List.map, areFree_append, areFree_cons,
    areFree_nil, and_true, Settings.style]
  exact ⟨⟨⟨isFree_ofList (by decide), isFree_ofList (by decide), hfault, isFree_ofList (by decide),
    isFree_ofList (by decide), isFree_ofList (by decide), isFree_empty⟩, hcomment,
    ⟨isFree_append (by decide), isFree_ofList (by decide)⟩, isFree_ofList (by decide)⟩,
    isFree_ofList (by decide)⟩

-- The lines of a case have one gap, and a block begins at a line with two.

theorem not_infix_of_gap {target : Target} {text : List Char} (h : text.count ' ' = 1) :
    ¬ target.marker.toList <:+: text := by
  intro hmarker
  have hgaps : target.marker.toList.count ' ' = 2 := by
    cases target <;> decide
  have hcount := hmarker.count_le ' '
  omega

theorem count_gaps_of_isWord {text : List Char} (h : ∀ c ∈ text, c ≠ ' ' ∧ c ≠ '\n') :
    text.count ' ' = 0 := List.count_eq_zero.mpr fun hm => (h _ hm).1 rfl

section

variable {style : ClassStyle} (hs : style.IsPlain) {name : String} (hn : IsWord name)
  (target : Target) (lines : Dictionary String Nat)

include hs hn

theorem not_infix_nameCase (key : String) :
    ∀ row ∈ nameCase style lines key name, ¬ target.marker.toList <:+: row.text.toList := by
  have hclass := count_gaps_of_isWord hs.className_oneWord
  have hmember := count_gaps_of_isWord (isWord_memberText style hn)
  have hname := count_gaps_of_isWord hn
  refine forall_text_nameCase (P := fun text => ¬ target.marker.toList <:+: text)
    (not_infix_of_gap ?_) (not_infix_of_gap ?_) lines key
  · unfold nameLabel
    simp only [List.count_append, String.reduceToList, hclass, hmember]
    decide
  · unfold nameAnswer
    simp only [List.count_append, String.reduceToList, hname]
    decide

theorem not_infix_codeCase (n : Int) :
    ∀ row ∈ codeCase style lines (toString n) name,
      ¬ target.marker.toList <:+: row.text.toList := by
  have hclass := count_gaps_of_isWord hs.className_oneWord
  have hmember := count_gaps_of_isWord (isWord_memberText style hn)
  have hcode : (toString n).toList.count ' ' = 0 :=
    List.count_eq_zero.mpr fun hm => absurd (Number.mem_toString hm) (by decide)
  refine forall_text_codeCase (P := fun text => ¬ target.marker.toList <:+: text)
    (not_infix_of_gap ?_) (not_infix_of_gap ?_) lines
  · unfold codeLabel
    simp only [List.count_append, String.reduceToList, hcode]
    decide
  · unfold codeAnswer
    simp only [List.count_append, String.reduceToList, hclass, hmember]
    decide

end

-- No line of the definitions is the one that ends a block.

theorem trim_ne_brace {text : List Char} {c : Char} (hc : c ∈ text) (hb : isBlank c = false)
    (hne : c ≠ '\x7d') : trim text ≠ ['\x7d'] := by
  intro htrim
  have hin : [c] <:+: trim text :=
    infix_trim (by simpa using hb) (by simpa using hb) ((List.singleton_infix_iff c text).mpr hc)
  rw [htrim] at hin
  exact hne (List.singleton_infix_singleton_iff.mp hin)

theorem trim_constantRows_ne_brace (style : ClassStyle) (constant : Constant) :
    ∀ row ∈ constantRows style constant, trim row.text.toList ≠ ['\x7d'] := by
  have hstar : ∀ row ∈ docRows constant.doc, '*' ∈ row.text.toList := by
    unfold docRows
    split
    · exact List.forall_mem_nil _
    · refine List.forall_mem_cons.mpr ⟨by decide, List.forall_mem_append.mpr ⟨?_, by decide⟩⟩
      intro row hrow
      obtain ⟨line, -, rfl⟩ := List.mem_map.mp hrow
      unfold docRow
      split
      · decide
      · simp [row]
  have hdot : '.' ∈ (definitionRow style constant).text.toList := by
    rw [toList_definitionRow, definitionLine]
    simp
  rw [constantRows, List.cons_append]
  refine List.forall_mem_cons.mpr ⟨by decide, List.forall_mem_append.mpr ⟨fun row hrow => ?_, ?_⟩⟩
  · exact trim_ne_brace (hstar row hrow) (by decide) (by decide)
  · exact List.forall_mem_singleton.mpr (trim_ne_brace hdot (by decide) (by decide))

theorem firstBlock_classPage (settings : Settings) {model : ClassModel} (hm : model.IsPlain)
    (block : Block) :
    firstBlock settings.markers (classPage settings.style model).text ≠ .ok block := by
  have hs := isPlain_style settings
  have htexts := map_text_sourceLines_classPage hs hm
  rw [flatRows, List.map_append, List.map_append] at htexts
  obtain ⟨front, behind, hlines, hfront, hbehind⟩ := List.map_eq_append_iff.mp htexts
  refine firstBlock_ne_ok hlines (forall_not_opens ?_ hfront) (fun line hline => ?_) block
  · intro text htext
    obtain ⟨row, hrow, rfl⟩ := List.mem_map.mp htext
    simp only [List.mem_append, List.mem_flatMap] at hrow
    rcases hrow with (((hrow | ⟨⟨key, name⟩, hpair, hrow⟩) | hrow) | ⟨⟨code, name⟩, hpair, hrow⟩)
      | hrow
    · exact (areFree_openingRows settings row hrow).not_opened settings.target
    · exact not_infix_nameCase hs (hm.named _ hpair) settings.target _ key row hrow
    · exact (areFree_betweenRows settings row hrow).not_opened settings.target
    · obtain ⟨n, rfl⟩ := hm.numeral _ hpair
      exact not_infix_codeCase hs (hm.coded _ hpair) settings.target _ n row hrow
    · exact (areFree_closingRows settings row hrow).not_opened settings.target
  · obtain ⟨text, htext, hline⟩ := List.mem_map.mp (hbehind ▸ List.mem_map_of_mem hline)
    obtain ⟨row, hrow, rfl⟩ := List.mem_map.mp htext
    obtain ⟨constant, -, hrow⟩ := List.mem_flatMap.mp hrow
    rw [Bool.eq_false_iff, ne_eq]
    exact mt (closes_iff hline.symm).mp
      (trim_constantRows_ne_brace settings.style constant row hrow)

-- A source of definitions may begin with comments, and not with the word behind them.

theorem isComment_commentPiece (body : List Char) :
    ∀ token ∈ (commentPiece body).token.toList, token.isComment := by
  unfold commentPiece
  dsimp only
  split
  · exact List.forall_mem_singleton.mpr rfl
  · exact List.forall_mem_nil _

theorem lexes_comment {margin body : List Char} (hm : ∀ c ∈ margin, c = ' ') (hb : IsInside body)
    {text : List Char} {tokens : List Token} (h : Lexes text tokens) :
    Lexes (margin ++ '/' :: '*' :: (body ++ '*' :: '/' :: '\n' :: text))
      ((commentPiece body).token.toList ++ tokens) := by
  refine Lexes.margin (fun c hc => ?_) (Lexes.comment hb (Lexes.blank (by decide) h))
  rw [hm c hc]
  decide

-- Rows without code are comments.
theorem exists_comments {rows : List Row} (h : Commented rows)
    (hn : ∀ row ∈ rows, row.isCode = false) :
    ∃ tokens, (∀ token ∈ tokens, token.isComment) ∧ Lexes (writtenRows rows) tokens := by
  induction h with
  | nil => exact ⟨[], List.forall_mem_nil _, Lexes.nil⟩
  | code h hr ih =>
      obtain ⟨hrow, -⟩ := List.forall_mem_cons.mp hn
      exact absurd h (by simp [hrow])
  | @blank row rows h hr ih =>
      obtain ⟨-, hrest⟩ := List.forall_mem_cons.mp hn
      obtain ⟨tokens, hcomments, hlexes⟩ := ih hrest
      have hwritten : writtenRows (row :: rows) = '\n' :: writtenRows rows := by
        simp [writtenRows, Row.written, h]
      exact ⟨tokens, hcomments, hwritten ▸ Lexes.blank (by decide) hlexes⟩
  | @remark row rows body h hb hr ih =>
      obtain ⟨-, hrest⟩ := List.forall_mem_cons.mp hn
      obtain ⟨tokens, hcomments, hlexes⟩ := ih hrest
      obtain ⟨margin, hm, hmargin⟩ := row.exists_margin
      have hwritten : writtenRows (row :: rows)
          = margin ++ '/' :: '*' :: (body ++ '*' :: '/' :: '\n' :: writtenRows rows) := by
        simp [writtenRows, hmargin, h]
      exact ⟨_, List.forall_mem_append.mpr ⟨isComment_commentPiece body, hcomments⟩,
        hwritten ▸ lexes_comment hm hb hlexes⟩
  | @comment first last lines rows opening hf ho hi hl hr ih =>
      have hrest : ∀ row ∈ rows, row.isCode = false := fun row hrow => hn row (by simp [hrow])
      obtain ⟨tokens, hcomments, hlexes⟩ := ih hrest
      obtain ⟨margin, body, hm, hb, hwritten⟩ := exists_comment hf ho hi hl
      have hrows := hwritten rows []
      rw [List.append_nil, List.append_nil] at hrows
      exact ⟨_, List.forall_mem_append.mpr ⟨isComment_commentPiece body, hcomments⟩,
        hrows ▸ lexes_comment hm hb hlexes⟩

-- The word that the code of a class begins with begins no declaration.
theorem parse_export {comments rest : List Char} {tokens : List Token}
    (hc : ∀ token ∈ tokens, token.isComment) (hl : Lexes comments tokens) (file : Proto.File) :
    Proto.parse (String.ofList (comments ++ ("export".toList ++ ' ' :: rest))) ≠ .ok file := by
  intro h
  obtain ⟨ps, doc, hps, hrun⟩ := parse_eq_ok_iff.mp h
  have hword : Lexes ("export".toList ++ [' ']) [.word "export"] :=
    Lexes.word (by decide) (by decide) (Lexes.blank (by decide) Lexes.nil)
  obtain ⟨front, hvalues, hfront⟩ := hl.append hword
  have hpieces := hfront rest
  rw [List.append_assoc, List.append_assoc, List.singleton_append, ← String.toList_ofList
    (l := comments ++ _), hps] at hpieces
  obtain ⟨rfl, -⟩ := Prod.mk.inj hpieces
  rw [place_append, List.foldlM_append] at hrun
  obtain ⟨state, hstate, -⟩ := bind_eq_ok.mp hrun
  have hplaced := (map_value_place front .start).trans hvalues
  obtain ⟨found, last, hsplit, hfound, hlast⟩ := List.map_eq_append_iff.mp hplaced
  obtain ⟨one, hone, hvalue⟩ := List.map_eq_singleton_iff.mp hlast
  have hcomments : ∀ one ∈ found, one.value.isComment := by
    intro one hm
    exact hc _ (hfound ▸ List.mem_map_of_mem hm)
  obtain ⟨waiting, hbefore⟩ := foldlM_comments hcomments []
  rw [hsplit, hone, List.foldlM_append, start, hbefore (.file {})] at hstate
  obtain ⟨value, span⟩ := one
  obtain rfl : value = .word "export" := hvalue
  simp [step, stepDeclaration, stepTopLevel, unexpected, bind, Except.bind] at hstate

-- The rows in front of the code are comments.

def frontRows (style : ClassStyle) : List Row :=
  (if style.license then licenseRows ++ [blank] else []) ++ (typedefRows style ++ [blank])

theorem commented_frontRows {style : ClassStyle} (h : style.HasIdentifiers) :
    Commented (frontRows style) := by
  refine Commented.append ?_ ((commented_typedefRows h).append (.blank rfl .nil))
  split
  · exact commented_licenseRows.append (.blank rfl .nil)
  · exact .nil

theorem isCode_margin (rest : List Char) : (row (String.ofList (' ' :: rest))).isCode = false := by
  simp [Row.isCode, isCode, row, isBlank]

theorem isCode_frontRows (style : ClassStyle) : ∀ row ∈ frontRows style, row.isCode = false := by
  have hblank : ∀ row ∈ [blank], row.isCode = false := List.forall_mem_singleton.mpr rfl
  have hlicense : ∀ row ∈ licenseRows, row.isCode = false := by
    refine List.forall_mem_cons.mpr ⟨isCode_of_slash rfl, ?_⟩
    repeat refine List.forall_mem_cons.mpr ⟨isCode_margin _, ?_⟩
    exact List.forall_mem_nil _
  have htypedef : ∀ row ∈ typedefRows style, row.isCode = false := by
    simp only [typedefRows, commentRows, List.cons_append, List.nil_append, List.forall_mem_cons]
    refine ⟨isCode_of_slash rfl, isCode_margin _, ?_, isCode_margin _, List.forall_mem_nil _⟩
    simp [Row.isCode, Script.isCode, row, isBlank]
  refine List.forall_mem_append.mpr ⟨?_, List.forall_mem_append.mpr ⟨htypedef, hblank⟩⟩
  split
  · exact List.forall_mem_append.mpr ⟨hlicense, hblank⟩
  · exact List.forall_mem_nil _

theorem parse_classPage (settings : Settings) (model : ClassModel) (file : Proto.File) :
    Proto.parse (classPage settings.style model).text ≠ .ok file := by
  obtain ⟨tokens, hcomments, hlexes⟩ := exists_comments
    (commented_frontRows (hasIdentifiers_style settings)) (isCode_frontRows settings.style)
  have htext : ∃ rest, (classPage settings.style model).text.toList
      = writtenRows (frontRows settings.style) ++ ("export".toList ++ ' ' :: rest) := by
    rw [classPage, Page.toList_text_ofRows]
    simp [scriptRows, classRows, braced, frontRows, writtenRows, Row.written, row]
  obtain ⟨rest, htext⟩ := htext
  rw [← String.ofList_toList (s := (classPage settings.style model).text), htext]
  exact parse_export hcomments hlexes file

end Codebook
