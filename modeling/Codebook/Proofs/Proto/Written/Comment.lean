import Codebook.Proofs.Proto.Comment
import Codebook.Proofs.Proto.Written

namespace Codebook.Proto

open Codebook.Text

-- What stands between the ends of the comment in front of a declaration
def docBody (doc : List String) : List Char :=
  '*' :: '\n' :: (doc.flatMap rowText ++ [' '])

theorem docText_eq {doc : List String} (h : doc ≠ []) :
    docText doc = '/' :: '*' :: (docBody doc ++ '*' :: '/' :: ['\n']) := by
  obtain ⟨line, rest, rfl⟩ := List.exists_cons_of_ne_nil h
  have hopen : "/**\n".toList = ['/', '*', '*', '\n'] := by decide
  have hclose : " */\n".toList = [' ', '*', '/', '\n'] := by decide
  have htext : docText (line :: rest)
      = "/**\n".toList ++ (line :: rest).flatMap rowText ++ " */\n".toList := rfl
  rw [htext, hopen, hclose, docBody]
  simp

theorem rowText_eq (line : String) :
    rowText line = ' ' :: '*' :: ' ' :: (line.toList ++ ['\n']) := by
  have hstar : " * ".toList = [' ', '*', ' '] := by decide
  rw [rowText, hstar]
  rfl

-- The star of a row is not the beginning of the end of the comment.
theorem isInside_rowText {line : String} (h : IsDocLine line) : IsInside (rowText line) := by
  rw [rowText_eq]
  refine IsInside.cons ?_ (IsInside.cons ?_ (IsInside.cons ?_ (IsInside.line h.noEnd)))
  · simp
  · simp
  · simp

theorem isInside_comment {inner : List Char} (h : IsInside inner) :
    IsInside ('*' :: '\n' :: (inner ++ [' '])) := by
  have hlast : IsInside [' '] := IsInside.cons (by simp) IsInside.nil
  exact IsInside.cons (by simp) (IsInside.cons (by simp) (h.append hlast))

theorem isInside_docBody {doc : List String} (h : ∀ line ∈ doc, IsDocLine line) :
    IsInside (docBody doc) := by
  have hrows : IsInside (doc.flatMap rowText) := by
    induction doc with
    | nil => exact IsInside.nil
    | cons line rest ih =>
        obtain ⟨hline, hrest⟩ := List.forall_mem_cons.mp h
        rw [List.flatMap_cons]
        exact (isInside_rowText hline).append (ih hrest)
  exact isInside_comment hrows

-- What stands between the ends of a comment that has some texts in its rows
def commentBody (texts : List (List Char)) : List Char :=
  '*' :: '\n' :: (texts.flatMap (· ++ ['\n']) ++ [' '])

theorem docBody_eq (doc : List String) :
    docBody doc = commentBody (doc.map fun line => ' ' :: '*' :: ' ' :: line.toList) := by
  have hrow : rowText = fun line => (' ' :: '*' :: ' ' :: line.toList) ++ ['\n'] :=
    funext rowText_eq
  rw [docBody, commentBody, List.flatMap_map, hrow]

theorem rows_commentBody {texts : List (List Char)} (h : ∀ text ∈ texts, '\n' ∉ text) :
    rows (commentBody texts) = ['*', '\n'] :: (texts.map (· ++ ['\n']) ++ [[' ']]) := by
  have hrows : rows (texts.flatMap (· ++ ['\n']) ++ [' '])
      = texts.map (· ++ ['\n']) ++ [[' ']] := by
    induction texts with
    | nil => rfl
    | cons text rest ih =>
        obtain ⟨htext, hrest⟩ := List.forall_mem_cons.mp h
        rw [List.flatMap_cons, List.map_cons, List.append_assoc, List.append_assoc,
          List.singleton_append, rows_append_lineFeed htext, ih hrest]
        rfl
  have hstar : '\n' ∉ ['*'] := by decide
  have hfirst := rows_append_lineFeed hstar (texts.flatMap (· ++ ['\n']) ++ [' '])
  rw [hrows] at hfirst
  exact hfirst

theorem withoutStar_rowText {line : String} (h : IsDocLine line) :
    withoutStar (rowText line) = line.toList := by
  have hrow : trim (rowText line) = '*' :: trimEnd (' ' :: line.toList) := by
    rw [rowText_eq, trim_cons_blank (by decide), ← trim_cons (by decide)]
    exact trim_append_blank (by decide) ('*' :: ' ' :: line.toList)
  rw [withoutStar, hrow]
  show trim (trimEnd (' ' :: line.toList)) = line.toList
  rw [trim_trimEnd, trim_cons_blank (by decide), h.trimmed]

theorem withoutEmptyEnds_of_ends {lines : List (List Char)} (hh : lines.head? ≠ some [])
    (hl : lines.getLast? ≠ some []) : withoutEmptyEnds ([] :: (lines ++ [[]])) = lines := by
  have hkeep (more : List (List Char)) (hm : more.head? ≠ some []) :
      more.dropWhile List.isEmpty = more := by
    cases more with
    | nil => rfl
    | cons line rest =>
        have hline : line ≠ [] := fun he => hm (congrArg some he)
        simp [hline]
  cases lines with
  | nil => rfl
  | cons line rest =>
      have hfront : ([] :: (line :: rest ++ [[]])).dropWhile List.isEmpty
          = line :: rest ++ [[]] := hkeep (line :: rest ++ [[]]) hh
      have hback : (line :: rest).reverse.dropWhile List.isEmpty = (line :: rest).reverse :=
        hkeep (line :: rest).reverse (by rwa [List.head?_reverse])
      rw [withoutEmptyEnds, hfront, List.reverse_append, List.reverse_singleton,
        List.singleton_append, List.dropWhile_cons_of_pos rfl, hback, List.reverse_reverse]

-- The lines of a doc are read back from the rows that they stand in.
theorem docLines_commentBody {doc : List String} {texts : List (List Char)}
    (hh : doc.head? ≠ some "") (hl : doc.getLast? ≠ some "")
    (ht : ∀ text ∈ texts, '\n' ∉ text)
    (hs : texts.map (fun text => withoutStar (text ++ ['\n'])) = doc.map String.toList) :
    docLines (commentBody texts) = doc := by
  have hempty (line : Option String) (hl : line ≠ some "") :
      line.map String.toList ≠ some [] := by
    intro he
    obtain ⟨text, rfl, htext⟩ := Option.map_eq_some_iff.mp he
    exact hl (congrArg some (String.toList_eq_nil_iff.mp htext))
  have hends : withoutEmptyEnds ([] :: (doc.map String.toList ++ [[]]))
      = doc.map String.toList := by
    apply withoutEmptyEnds_of_ends
    · rw [List.head?_map]
      exact hempty _ hh
    · rw [List.getLast?_map]
      exact hempty _ hl
  have hfirst : withoutStar ['*', '\n'] = [] := by decide
  have hlast : withoutStar [' '] = [] := by decide
  have hstars : (texts.map (· ++ ['\n'])).map withoutStar = doc.map String.toList := by
    rw [List.map_map]
    exact hs
  rw [docLines, rows_commentBody ht, List.map_cons, List.map_append, hstars, hfirst,
    List.map_singleton, hlast, hends, List.map_map]
  simp

theorem docLines_docBody {doc : List String} (h : IsDoc doc) : docLines (docBody doc) = doc := by
  rw [docBody_eq]
  refine docLines_commentBody h.head h.last (List.forall_mem_map.mpr fun line hl => ?_) ?_
  · simpa using (h.lines line hl).noLineFeed
  · rw [List.map_map]
    refine List.map_congr_left fun line hl => ?_
    have hrow := withoutStar_rowText (h.lines line hl)
    rw [rowText_eq] at hrow
    exact hrow

-- The lines that a comment is read as make up a doc that can be written.
theorem isDoc_docLines {body : List Char} (h : ¬ ['*', '/'] <:+: body) :
    IsDoc (docLines body) := by
  have hnormal := isNormalDoc_docLines body
  refine ⟨fun line hl => ⟨hnormal.trimmed line hl, hnormal.oneLine line hl, ?_⟩, hnormal.head,
    hnormal.last⟩
  obtain ⟨text, htext, rfl⟩ := List.mem_map.mp hl
  obtain ⟨row, hrow, rfl⟩ := List.mem_map.mp (mem_of_mem_withoutEmptyEnds htext)
  have hbody : row <:+: body := flatten_rows body ▸ List.infix_of_mem_flatten hrow
  rw [String.toList_ofList]
  exact fun hend => h (hend.trans ((infix_of_withoutStar row).trans hbody))

end Codebook.Proto
