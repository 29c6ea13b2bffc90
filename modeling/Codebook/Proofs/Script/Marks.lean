import Codebook.Proofs.Script.Reading.Theorems

namespace Codebook.Script

open Codebook.Text

-- Which lines of a page its marks lead to.

-- The marks of rows that begin at a line
def marksFrom (number : Nat) : List Row → List Mark
  | [] => []
  | row :: rest => (row.declared.map (Mark.mk number)).toList ++ marksFrom (number + 1) rest

namespace Page

theorem marks_addRow (page : Page) (row : Row) :
    (page.addRow row).marks.toList
      = page.marks.toList ++ (row.declared.map (Mark.mk page.number)).toList := by
  unfold addRow
  cases row.declared with
  | none => simp [line, newline, push]
  | some declared => simp [lineFrom, line, newline, push]

-- A row adds a line, also where another line was begun.
theorem number_addRow (page : Page) (row : Row) :
    (page.addRow row).number = page.number + 1 := by
  unfold addRow
  cases row.declared with
  | none => simp [line, newline, push]
  | some declared => simp [lineFrom, line, newline, push]

theorem marks_foldl_addRow (page : Page) (rows : List Row) :
    (rows.foldl addRow page).marks.toList
      = page.marks.toList ++ marksFrom page.number rows := by
  induction rows generalizing page with
  | nil => simp [marksFrom]
  | cons row rest ih =>
      rw [List.foldl_cons, ih, marks_addRow, number_addRow, marksFrom, List.append_assoc]

theorem marks_ofRows (rows : List Row) : (ofRows rows).marks.toList = marksFrom 0 rows := by
  rw [ofRows, marks_foldl_addRow]
  rfl

end Page

-- The lines of a page without their indentation and their line feeds
def Page.bareLines (page : Page) : List (List Char) :=
  page.lines.toList.map fun line => line.toList.dropLast.dropWhile (· == ' ')

-- The line of a page and the line of the declarations that a mark leads to
def Page.follow (page : Page) (mark : Mark) : Option (List Char) × Nat :=
  (page.bareLines[mark.written]?, mark.declared)

theorem Page.bareLines_ofRows (rows : List Row) :
    (Page.ofRows rows).bareLines = rows.map Row.bare := by
  rw [bareLines, lines_ofRows, List.map_map]
  refine List.map_congr_left fun row _ => ?_
  rw [Function.comp_apply, String.toList_ofList, List.dropLast_concat, dropWhile_written]

theorem le_written_of_mem {number : Nat} {rows : List Row} {mark : Mark}
    (h : mark ∈ marksFrom number rows) : number ≤ mark.written := by
  induction rows generalizing number with
  | nil => simp [marksFrom] at h
  | cons row rest ih =>
      rcases List.mem_append.mp h with h | h
      · obtain ⟨declared, -, rfl⟩ := Option.map_eq_some_iff.mp (Option.mem_toList.mp h)
        exact Nat.le_refl number
      · exact Nat.le_of_succ_le (ih h)

-- Marks are made from the top of a page to its bottom.
theorem written_pairwise (number : Nat) (rows : List Row) :
    (marksFrom number rows).Pairwise fun mark next => mark.written < next.written := by
  induction rows generalizing number with
  | nil => exact List.Pairwise.nil
  | cons row rest ih =>
      refine List.pairwise_append.mpr ⟨?_, ih (number + 1), fun mark hm next hn => ?_⟩
      · cases row.declared <;> simp
      · obtain ⟨declared, -, rfl⟩ := Option.map_eq_some_iff.mp (Option.mem_toList.mp hm)
        exact le_written_of_mem hn

-- A mark leads to what its row becomes among the lines of a page.
theorem map_marksFrom {α : Type} (f : Row → α) (rows : List Row) (front behind : List α) :
    (marksFrom front.length rows).map
        (fun mark => ((front ++ (rows.map f ++ behind))[mark.written]?, mark.declared))
      = rows.filterMap fun row => row.declared.map fun declared => (some (f row), declared) := by
  induction rows generalizing front with
  | nil => rfl
  | cons row rest ih =>
      have hrest := ih (front ++ [f row])
      rw [List.length_append, List.length_singleton, List.append_assoc,
        List.singleton_append] at hrest
      rw [marksFrom, List.map_append, List.map_cons, List.cons_append, hrest, List.filterMap_cons]
      cases row.declared with
      | none => simp
      | some declared => simp

-- The line of a row that comes from a line of the declarations, and that line
def Row.traced (row : Row) : Option (List Char × Nat) :=
  row.declared.map fun declared => (row.bare, declared)

-- What the marks of a class say: the lines that they lead to, with those of the declarations

def tracedNames (style : ClassStyle) (model : ClassModel) : List (List Char × Nat) :=
  model.toName.names.pairs.map fun (key, name) =>
    (nameLabel style name, declaredLine (declaredLines model.constants) key)

def tracedCodes (model : ClassModel) : List (List Char × Nat) :=
  model.fromCode.names.pairs.map fun (code, name) =>
    (codeLabel code, declaredLine (declaredLines model.constants) name)

def tracedDefinitions (style : ClassStyle) (model : ClassModel) : List (List Char × Nat) :=
  model.constants.map fun constant => (definitionLine style constant, constant.line)

def tracedLines (style : ClassStyle) (model : ClassModel) : List (List Char × Nat) :=
  tracedNames style model ++ (tracedCodes model ++ tracedDefinitions style model)

-- Nothing that is written by itself comes from the declarations.

def IsUntraced (rows : List Row) : Prop := ∀ row ∈ rows, row.declared = none

theorem IsUntraced.filterMap_traced {rows : List Row} (h : IsUntraced rows) :
    rows.filterMap Row.traced = [] := by
  refine List.filterMap_eq_nil_iff.mpr fun row hm => ?_
  rw [Row.traced, h row hm]
  rfl

theorem isUntraced_commentRows {lines : List Row} (h : IsUntraced lines) :
    IsUntraced (commentRows lines) := by
  simpa [IsUntraced, commentRows, row, or_imp, forall_and] using h

theorem isUntraced_docRows (doc : List String) : IsUntraced (docRows doc) := by
  unfold docRows
  split
  · nofun
  · refine isUntraced_commentRows fun line hm => ?_
    obtain ⟨text, -, rfl⟩ := List.mem_map.mp hm
    unfold docRow
    split <;> rfl

theorem isUntraced_openingRows (style : ClassStyle) : IsUntraced (openingRows style) := by
  unfold openingRows
  split <;> simp [IsUntraced, licenseRows, typedefRows, constructorRows, commentRows, braced,
    indented, row, blank]

theorem isUntraced_betweenRows (style : ClassStyle) : IsUntraced (betweenRows style) := by
  simp [IsUntraced, betweenRows, commentRows, row, blank]

theorem isUntraced_closingRows (style : ClassStyle) : IsUntraced (closingRows style) := by
  simp [IsUntraced, closingRows, valueOfRows, commentRows, braced, indented, row, blank]

theorem filterMap_traced_nameCase (style : ClassStyle) (lines : Dictionary String Nat)
    (key name : String) :
    (nameCase style lines key name).filterMap Row.traced
      = [(nameLabel style name, declaredLine lines key)] := by
  have hbare := (List.cons.inj (map_bare_nameCase style lines key name)).1
  rw [← hbare]
  rfl

theorem filterMap_traced_codeCase (style : ClassStyle) (lines : Dictionary String Nat)
    (code name : String) :
    (codeCase style lines code name).filterMap Row.traced
      = [(codeLabel code, declaredLine lines name)] := by
  have hbare := (List.cons.inj (map_bare_codeCase style lines code name)).1
  rw [← hbare]
  rfl

theorem filterMap_traced_constantRows {style : ClassStyle} (hs : style.IsPlain)
    (constant : Constant) :
    (constantRows style constant).filterMap Row.traced
      = [(definitionLine style constant, constant.line)] := by
  have hdoc := (isUntraced_docRows constant.doc).filterMap_traced
  rw [constantRows, List.cons_append, List.filterMap_cons_none rfl, List.filterMap_append, hdoc,
    ← hs.bare_definitionRow]
  rfl

theorem filterMap_traced_scriptRows {style : ClassStyle} (hs : style.IsPlain)
    (model : ClassModel) :
    (scriptRows style model).filterMap Row.traced = tracedLines style model := by
  have hflat : (scriptRows style model).filterMap Row.traced
      = (flatRows style model).filterMap Row.traced := by
    have h := congrArg (List.filterMap fun (text, declared) => declared.map fun declared =>
      (text.toList.dropWhile (· == ' '), declared)) (map_content_scriptRows style model)
    rwa [List.filterMap_map, List.filterMap_map] at h
  rw [hflat]
  simp only [flatRows, List.filterMap_append, List.filterMap_flatMap,
    (isUntraced_openingRows style).filterMap_traced,
    (isUntraced_betweenRows style).filterMap_traced,
    (isUntraced_closingRows style).filterMap_traced,
    filterMap_traced_nameCase, filterMap_traced_codeCase, filterMap_traced_constantRows hs,
    tracedLines, tracedNames, tracedCodes, tracedDefinitions, List.map_eq_flatMap,
    List.append_assoc, List.nil_append]

-- What the marks of a class lead to, in their order

section

variable {style : ClassStyle} (hs : style.IsPlain)

include hs

theorem map_marks_classPage (model : ClassModel) (behind : List (List Char)) :
    (classPage style model).marks.toList.map
        (fun mark =>
          (((scriptRows style model).map Row.bare ++ behind)[mark.written]?, mark.declared))
      = (tracedLines style model).map fun (line, declared) => (some line, declared) := by
  have hmarks := map_marksFrom Row.bare (scriptRows style model) [] behind
  rw [← filterMap_traced_scriptRows hs, List.map_filterMap, classPage, Page.marks_ofRows]
  refine hmarks.trans (List.filterMap_congr fun row _ => ?_)
  rw [Row.traced, Option.map_map]
  rfl

theorem map_follow_classPage (model : ClassModel) :
    (classPage style model).marks.toList.map (classPage style model).follow
      = (tracedLines style model).map fun (line, declared) => (some line, declared) := by
  have hmarks := map_marks_classPage hs model []
  rwa [List.append_nil, ← Page.bareLines_ofRows] at hmarks

-- The text that is read back has one more line behind the last line feed.
theorem marks_readingOf {model : ClassModel} (hm : model.IsPlain) :
    (classPage style model).marks.toList.map
        (fun mark => ((readingOf style model).lines[mark.written]?, mark.declared))
      = (tracedLines style model).map fun (line, declared) => (some line, declared) := by
  have hlines : (readingOf style model).lines = (scriptRows style model).map Row.bare ++ [[]] :=
    lines_ofRows _ (no_lineFeed_scriptRows hs hm)
  rw [hlines]
  exact map_marks_classPage hs model [[]]

theorem map_declared_classPage (model : ClassModel) :
    (classPage style model).marks.toList.map Mark.declared
      = (tracedLines style model).map Prod.snd := by
  have hdeclared := congrArg (List.map Prod.snd) (map_follow_classPage hs model)
  rw [List.map_map, List.map_map] at hdeclared
  exact hdeclared

end

end Codebook.Script
