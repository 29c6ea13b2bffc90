import Codebook.Proofs.Proto.Written.Reads
import Codebook.Proofs.Script.Comments.Rows

namespace Codebook.Script

open Codebook.Text Codebook.Proto

-- The comment in front of a definition reads back as the doc that it was written for.

-- A line in which no comment ends is written as it is.
theorem withoutClose_eq_self {text : List Char} (h : ¬ ['*', '/'] <:+: text) :
    withoutClose text = text := by
  fun_induction withoutClose text with
  | case1 => rfl
  | case2 rest ih => exact absurd ⟨[], rest, rfl⟩ h
  | case3 c rest hclose ih =>
      rw [ih fun hin => h (hin.trans (List.suffix_cons c rest).isInfix)]

theorem written_row (text : String) : (row text).written = text.toList := by
  simp [Row.written, row]

theorem written_docRow_empty : (docRow "").written = [' ', '*'] := by decide

theorem written_docRow {line : String} (hne : line ≠ "") (h : ¬ ['*', '/'] <:+: line.toList) :
    (docRow line).written = ' ' :: '*' :: ' ' :: line.toList := by
  have htext := toList_docRow hne
  rw [withoutClose_eq_self h] at htext
  rw [← htext, docRow, if_neg (by simpa using hne), written_row]
  rfl

theorem no_lineFeed_written_docRow {line : String} (h : IsDocLine line) :
    '\n' ∉ (docRow line).written := by
  by_cases hempty : line = ""
  · rw [hempty, written_docRow_empty]
    decide
  · rw [written_docRow hempty h.noEnd]
    simpa using h.noLineFeed

-- Without its star a row is the line again, also where nothing follows the star.
theorem withoutStar_docRow {line : String} (h : IsDocLine line) :
    withoutStar ((docRow line).written ++ ['\n']) = line.toList := by
  by_cases hempty : line = ""
  · rw [hempty, written_docRow_empty]
    decide
  · have hrow := withoutStar_rowText h
    rw [rowText_eq] at hrow
    rw [written_docRow hempty h.noEnd]
    exact hrow

theorem writtenRows_eq (rows : List Row) :
    writtenRows rows = (rows.map Row.written).flatMap (· ++ ['\n']) := by
  rw [List.flatMap_map]
  rfl

theorem writtenRows_docRows {doc : List String} (h : doc ≠ []) :
    writtenRows (docRows doc)
      = '/' :: '*' :: (commentBody ((doc.map docRow).map Row.written) ++ '*' :: '/' :: ['\n']) := by
  have hrows : docRows doc = row "/**" :: (doc.map docRow ++ [row " */"]) := by
    rw [docRows, if_neg (by simpa using h), commentRows, List.cons_append]
  have hopen : (row "/**").written = ['/', '*', '*'] := by decide
  have hclose : (row " */").written = [' ', '*', '/'] := by decide
  rw [hrows, commentBody, ← writtenRows_eq, writtenRows, List.flatMap_cons, List.flatMap_append,
    List.flatMap_singleton, hopen, hclose, ← writtenRows]
  simp

theorem docLines_docRows {doc : List String} (h : IsDoc doc) :
    docLines (commentBody ((doc.map docRow).map Row.written)) = doc := by
  refine docLines_commentBody h.head h.last ?_ ?_
  · intro text ht
    rw [List.map_map] at ht
    obtain ⟨line, hl, rfl⟩ := List.mem_map.mp ht
    exact no_lineFeed_written_docRow (h.lines line hl)
  · rw [List.map_map, List.map_map]
    refine List.map_congr_left fun line hl => ?_
    have hrow := withoutStar_docRow (h.lines line hl)
    simpa only [Function.comp_apply] using hrow

theorem lexes_docRows {doc : List String} (h : IsDoc doc) (hne : doc ≠ []) :
    Lexes (writtenRows (docRows doc)) [.doc doc] := by
  have hinside : IsInside (commentBody ((doc.map docRow).map Row.written)) := by
    rw [commentBody, ← writtenRows_eq]
    exact isInside_comment (isInside_writtenRows isInner_of_mem_docRow)
  have hlexes := Lexes.doc hinside rfl (Lexes.nil.blank (by decide : isBlank '\n'))
  rwa [docLines_docRows h, ← writtenRows_docRows hne] at hlexes

-- The comment that is written for a doc, on lines of its own
def docComment (doc : List String) : String := (Page.ofRows (docRows doc)).text

-- The definition of a constant stands on the line behind the comment with its doc.
theorem text_classPage_split (style : ClassStyle) {model : ClassModel} {constant : Constant}
    (h : constant ∈ model.constants) :
    ∃ front behind, (classPage style model).text.toList
      = front ++ '\n' :: ((docComment constant.doc).toList
          ++ ((definitionRow style constant).written ++ '\n' :: behind)) := by
  obtain ⟨before, after, hsplit⟩ := List.append_of_mem h
  refine ⟨writtenRows (headRows style model ++ before.flatMap (constantRows style)),
    writtenRows (after.flatMap (constantRows style)), ?_⟩
  rw [classPage, docComment, Page.toList_text_ofRows, Page.toList_text_ofRows, scriptRows_eq,
    hsplit]
  simp [writtenRows, constantRows, blank, Row.written]

-- The comment in front of a constant that has the lines of another comment for its doc is one
-- comment with the same lines.
theorem doc_read_back {style : ClassStyle} {model : ClassModel} {constant : Constant}
    {body : List Char} (hm : constant ∈ model.constants) (hb : ¬ ['*', '/'] <:+: body)
    (hd : constant.doc = docLines body) (hne : constant.doc ≠ []) :
    (∃ front behind, (classPage style model).text.toList
      = front ++ '\n' :: ((docComment constant.doc).toList
          ++ ((definitionRow style constant).written ++ '\n' :: behind))) ∧
    ∃ span stop,
      tokenize (docComment constant.doc) = .ok ⟨[⟨.doc (docLines body), span⟩], stop⟩ := by
  refine ⟨text_classPage_split style hm, ?_⟩
  have hlexes : Lexes (docComment constant.doc).toList [.doc constant.doc] := by
    rw [docComment, Page.toList_text_ofRows]
    exact lexes_docRows (hd ▸ isDoc_docLines hb) hne
  obtain ⟨⟨tokens, stop⟩, hstream, hvalues⟩ := tokenize_of_lexes hlexes
  obtain ⟨⟨value, span⟩, rfl, rfl⟩ := List.map_eq_singleton_iff.mp hvalues
  exact ⟨span, stop, hd ▸ hstream⟩

-- Lines of every shape: stars and slashes in front, an empty line, a wide blank and a carriage
-- return between the blanks
def shapedBody : List Char :=
  "**\n * ** /first\n *\n\t/second * /\r\n * \u2003third\rpart \u00a0\n ".toList

def shapedConstant : Constant := ⟨"OK", 0, docLines shapedBody, 0⟩

theorem docLines_shapedBody :
    docLines shapedBody = ["*", "** /first", "", "/second * /", "third\rpart"] := by
  decide +kernel

def shapedStyle : ClassStyle := ⟨"Status", "ResponseCodeEnum", .pascal, true⟩

def shapedModel : ClassModel := ⟨⟨.name, {}⟩, ⟨.code, {}⟩, [shapedConstant]⟩

theorem shaped_doc_read_back :
    (∃ front behind, (classPage shapedStyle shapedModel).text.toList
      = front ++ '\n' :: ((docComment shapedConstant.doc).toList
          ++ ("Status.Ok = new Status(0);".toList ++ '\n' :: behind))) ∧
    ∃ span stop, tokenize (docComment shapedConstant.doc)
      = .ok ⟨[⟨.doc ["*", "** /first", "", "/second * /", "third\rpart"], span⟩], stop⟩ := by
  have hnone : shapedConstant.doc ≠ [] := by
    rw [shapedConstant, docLines_shapedBody]
    exact List.cons_ne_nil _ _
  have hend : ¬ ['*', '/'] <:+: shapedBody := by decide
  have hmem : shapedConstant ∈ shapedModel.constants := List.mem_cons_self
  have hread := @doc_read_back shapedStyle _ _ _ hmem hend rfl hnone
  rw [docLines_shapedBody] at hread
  have hrow : (definitionRow shapedStyle shapedConstant).written
      = "Status.Ok = new Status(0);".toList := by
    decide +kernel
  rwa [hrow] at hread

end Codebook.Script
