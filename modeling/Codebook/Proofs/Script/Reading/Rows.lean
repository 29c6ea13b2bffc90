import Codebook.Proofs.Number.Decimal
import Codebook.Proofs.Script.MemberName
import Codebook.Proofs.Script.Page
import Codebook.Proofs.Script.Reading
import Codebook.Text.Blank

namespace Codebook.Script

open Codebook.Text

-- The rows of a class, told apart by what a reader sees of them.

-- The line of a row without its indentation
def Row.bare (row : Row) : List Char := row.text.toList.dropWhile (· == ' ')

theorem dropWhile_written (row : Row) : row.written.dropWhile (· == ' ') = row.bare := by
  have hmargin (width : Nat) (text : List Char) :
      (List.replicate width ' ' ++ text).dropWhile (· == ' ') = text.dropWhile (· == ' ') := by
    induction width with
    | zero => rfl
    | succ width ih => simp [List.replicate_succ, ih]
  unfold Row.written Row.bare
  split
  · rfl
  · exact hmargin _ _

theorem lines_ofRows (className : String) {rows : List Row}
    (h : ∀ row ∈ rows, '\n' ∉ row.text.toList) :
    (Reading.ofText className (Page.ofRows rows).text).lines = rows.map Row.bare ++ [[]] := by
  have hwritten : ∀ row ∈ rows, '\n' ∉ row.written := by
    intro row hr hm
    rcases List.mem_append.mp hm with hm | hm
    · split at hm
      · simp at hm
      · simp [List.mem_replicate] at hm
    · exact h row hr hm
  simp [Reading.ofText, Page.toList_text_ofRows, splitOn_writtenRows hwritten,
    Function.comp_def, dropWhile_written]

-- A line that returns a text in quotes, or what begins with a capital
def returnsName (line : List Char) : Bool :=
  "return ".toList.isPrefixOf line && (line.drop 7).head?.any fun c => c == '"' || c.isUpper

-- A line that is not a label, returns no name and does not begin as the name of a class does: with
-- a capital other than the one of `Object`. All lines but those of the cases and the definitions
-- are of this kind.
def isQuiet : List Char → Bool
  | [] => true
  | c :: rest =>
    (!c.isUpper || c == 'O') && !"case ".toList.isPrefixOf (c :: rest) && !returnsName (c :: rest)

-- A row that is one quiet line
structure Row.IsPlain (row : Row) : Prop where
  no_lineFeed : '\n' ∉ row.text.toList
  quiet : isQuiet row.bare

def ArePlain (rows : List Row) : Prop := ∀ row ∈ rows, row.IsPlain

@[simp] theorem arePlain_nil : ArePlain [] := by
  simp [ArePlain]

@[simp] theorem arePlain_cons {row : Row} {rows : List Row} :
    ArePlain (row :: rows) ↔ row.IsPlain ∧ ArePlain rows :=
  List.forall_mem_cons

@[simp] theorem arePlain_append {front back : List Row} :
    ArePlain (front ++ back) ↔ ArePlain front ∧ ArePlain back :=
  List.forall_mem_append

-- The rows in front of the labels of `toString`
def openingRows (style : ClassStyle) : List Row :=
  (if style.license then licenseRows ++ [blank] else []) ++ typedefRows style
    ++ blank :: row ("export default class " ++ style.className ++ " \x7b") :: constructorRows
    ++ blank :: commentRows [row " * @returns \x7bstring\x7d"]
    ++ [row "toString() \x7b", row "switch (this) \x7b"]

-- The rows between the labels of `toString` and those of `_fromCode`
def betweenRows (style : ClassStyle) : List Row :=
  [row "default:", row "return `UNKNOWN ($\x7bthis._code\x7d)`;", row "\x7d", row "\x7d", blank]
    ++ commentRows [
      row " * @internal",
      row " * @param \x7bnumber\x7d code",
      row (" * @returns \x7b" ++ style.className ++ "\x7d")]
    ++ [row "static _fromCode(code) \x7b", row "switch (code) \x7b"]

-- The rows between the labels of `_fromCode` and the definitions
def closingRows (style : ClassStyle) : List Row :=
  [row "default:", row "throw new Error(",
    row ("`(BUG) " ++ style.className ++ ".fromCode() does not handle code: $\x7bcode\x7d`"),
    row ");", row "\x7d", row "\x7d", blank]
    ++ valueOfRows style ++ [row "\x7d"]

-- A class without the indentation of its rows
def flatRows (style : ClassStyle) (model : ClassModel) : List Row :=
  openingRows style
    ++ model.toName.names.pairs.flatMap (fun (key, name) =>
      nameCase style (declaredLines model.constants) key name)
    ++ betweenRows style
    ++ model.fromCode.names.pairs.flatMap (fun (code, name) =>
      codeCase style (declaredLines model.constants) code name)
    ++ closingRows style
    ++ model.constants.flatMap (constantRows style)

-- What a row says, whatever its indentation
def Row.content (row : Row) : String × Option Nat := (row.text, row.declared)

theorem map_content_indented (rows : List Row) :
    (indented rows).map Row.content = rows.map Row.content := by
  simp [indented, Row.content]

theorem map_content_scriptRows (style : ClassStyle) (model : ClassModel) :
    (scriptRows style model).map Row.content = (flatRows style model).map Row.content := by
  simp [scriptRows, flatRows, classRows, toStringRows, fromCodeRows, valueOfRows,
    constructorRows, braced, openingRows, betweenRows, closingRows, List.map_flatMap, row,
    map_content_indented]

theorem map_text_scriptRows (style : ClassStyle) (model : ClassModel) :
    (scriptRows style model).map Row.text = (flatRows style model).map Row.text := by
  have hcontent := congrArg (List.map Prod.fst) (map_content_scriptRows style model)
  rwa [List.map_map, List.map_map] at hcontent

-- The names of a class stay on their line, and nothing that is written by itself begins as the
-- name of the class does.
structure ClassStyle.IsPlain (style : ClassStyle) : Prop where
  className : ∃ c rest, style.className.toList = c :: rest ∧ c.isUpper ∧ c ≠ 'O'
  className_oneWord : ∀ x ∈ style.className.toList, x ≠ ' ' ∧ x ≠ '\n'
  enumName_oneLine : '\n' ∉ style.enumName.toList

-- A row that begins with a star is plain. The text is given by its characters, so that a long
-- literal matches without being spelled out.
theorem isPlain_star {rest : List Char} (h : '\n' ∉ rest) :
    (row (String.ofList (' ' :: '*' :: rest))).IsPlain where
  no_lineFeed := by simpa [row] using h
  quiet := by simp [row, Row.bare, isQuiet, returnsName, List.isPrefixOf]

theorem isPlain_star_append (front : List Char) {text : String} (hf : '\n' ∉ front)
    (ht : '\n' ∉ text.toList) :
    (row (String.ofList (' ' :: '*' :: front) ++ text)).IsPlain := by
  have h : String.ofList (' ' :: '*' :: front) ++ text
      = String.ofList (' ' :: '*' :: (front ++ text.toList)) := by
    simp [← String.toList_inj]
  rw [h]
  exact isPlain_star (by simp [hf, ht])

theorem arePlain_commentRows {lines : List Row} (h : ArePlain lines) :
    ArePlain (commentRows lines) := by
  simp only [commentRows, arePlain_append, arePlain_cons]
  exact ⟨⟨⟨by decide, rfl⟩, h⟩, isPlain_star (by decide), arePlain_nil⟩

theorem mem_of_mem_withoutClose {text : List Char} {x : Char} (hx : x ∈ withoutClose text)
    (hs : x ≠ '\\') : x ∈ text := by
  fun_induction withoutClose text with
  | case1 => exact hx
  | case2 rest ih =>
      simp only [List.mem_cons, hs, false_or] at hx ⊢
      exact hx.imp_right fun hx => hx.imp_right ih
  | case3 c rest hc ih =>
      rcases List.mem_cons.mp hx with rfl | hx
      · exact List.mem_cons_self
      · exact List.mem_cons_of_mem _ (ih hx)

theorem arePlain_docRows {doc : List String} (h : ∀ line ∈ doc, '\n' ∉ line.toList) :
    ArePlain (docRows doc) := by
  unfold docRows
  split
  · exact arePlain_nil
  · refine arePlain_commentRows fun line hm => ?_
    obtain ⟨text, htext, rfl⟩ := List.mem_map.mp hm
    unfold docRow
    split
    · exact isPlain_star (by decide)
    · refine isPlain_star_append [' '] (by decide) ?_
      intro hx
      exact h text htext (mem_of_mem_withoutClose (by simpa using hx) (by decide))

theorem arePlain_licenseRows : ArePlain licenseRows := by
  refine arePlain_cons.mpr ⟨⟨by decide, rfl⟩, ?_⟩
  repeat refine arePlain_cons.mpr ⟨isPlain_star (by decide), ?_⟩
  exact arePlain_nil

theorem arePlain_typedefRows {style : ClassStyle} (h : style.IsPlain) :
    ArePlain (typedefRows style) := by
  refine arePlain_commentRows ?_
  simp only [arePlain_cons, String.append_assoc]
  refine ⟨isPlain_star (by decide), isPlain_star_append _ (by decide) ?_, arePlain_nil⟩
  simp [h.enumName_oneLine]

theorem arePlain_constructorRows : ArePlain constructorRows := by
  refine arePlain_append.mpr ⟨arePlain_commentRows ?_, ?_⟩
  · simp only [arePlain_cons]
    exact ⟨isPlain_star (by decide), isPlain_star (by decide), isPlain_star (by decide),
      arePlain_nil⟩
  · simp only [braced, indented, List.map, List.cons_append, List.nil_append, arePlain_cons,
      arePlain_nil, and_true]
    and_intros <;> exact ⟨by decide, rfl⟩

theorem arePlain_openingRows {style : ClassStyle} (h : style.IsPlain) :
    ArePlain (openingRows style) := by
  have hname : '\n' ∉ style.className.toList := fun hn => (h.className_oneWord _ hn).2 rfl
  have hclass : (row ("export default class " ++ style.className ++ " \x7b")).IsPlain := by
    constructor <;> simp [row, Row.bare, isQuiet, returnsName, List.isPrefixOf, hname]
  have hlicense : ArePlain (if style.license then licenseRows ++ [blank] else []) := by
    split
    · simp only [arePlain_append, arePlain_cons]
      exact ⟨arePlain_licenseRows, ⟨by decide, rfl⟩, arePlain_nil⟩
    · exact arePlain_nil
  have hcomment : ArePlain (commentRows [row " * @returns \x7bstring\x7d"]) := by
    refine arePlain_commentRows (arePlain_cons.mpr ⟨isPlain_star (by decide), arePlain_nil⟩)
  simp only [openingRows, arePlain_append, arePlain_cons, arePlain_nil, and_true]
  exact ⟨⟨⟨⟨hlicense, arePlain_typedefRows h⟩, ⟨by decide, rfl⟩, hclass, arePlain_constructorRows⟩,
    ⟨by decide, rfl⟩, hcomment⟩, ⟨by decide, rfl⟩, by decide, rfl⟩

theorem arePlain_betweenRows {style : ClassStyle} (h : style.IsPlain) :
    ArePlain (betweenRows style) := by
  have hname : '\n' ∉ style.className.toList := fun hn => (h.className_oneWord _ hn).2 rfl
  have hreturns : (row (" * @returns \x7b" ++ style.className ++ "\x7d")).IsPlain := by
    rw [String.append_assoc]
    exact isPlain_star_append _ (by decide) (by simpa using hname)
  have hcomment : ArePlain (commentRows [row " * @internal", row " * @param \x7bnumber\x7d code",
      row (" * @returns \x7b" ++ style.className ++ "\x7d")]) := by
    apply arePlain_commentRows
    simp only [arePlain_cons]
    exact ⟨isPlain_star (by decide), isPlain_star (by decide), hreturns, arePlain_nil⟩
  simp only [betweenRows, arePlain_append, arePlain_cons, arePlain_nil, and_true]
  refine ⟨⟨?_, hcomment⟩, ?_⟩
  all_goals and_intros <;> exact ⟨by decide, rfl⟩

theorem arePlain_valueOfRows {style : ClassStyle} (h : style.IsPlain) :
    ArePlain (valueOfRows style) := by
  refine arePlain_append.mpr ⟨arePlain_commentRows ?_, ?_⟩
  · simp only [arePlain_cons, String.append_assoc]
    exact ⟨isPlain_star_append _ (by decide) (by simpa using h.enumName_oneLine), arePlain_nil⟩
  · simp only [braced, indented, List.map, List.cons_append, List.nil_append, arePlain_cons,
      arePlain_nil, and_true]
    and_intros <;> exact ⟨by decide, rfl⟩

theorem arePlain_closingRows {style : ClassStyle} (h : style.IsPlain) :
    ArePlain (closingRows style) := by
  have hname : '\n' ∉ style.className.toList := fun hn => (h.className_oneWord _ hn).2 rfl
  have hfault : (row ("`(BUG) " ++ style.className
      ++ ".fromCode() does not handle code: $\x7bcode\x7d`")).IsPlain := by
    constructor <;> simp [row, Row.bare, isQuiet, returnsName, List.isPrefixOf, hname]
  simp only [closingRows, arePlain_append, arePlain_cons, arePlain_nil, and_true]
  refine ⟨⟨⟨?_, ?_, hfault, ?_⟩, arePlain_valueOfRows h⟩, ?_⟩
  all_goals and_intros <;> exact ⟨by decide, rfl⟩

end Codebook.Script
