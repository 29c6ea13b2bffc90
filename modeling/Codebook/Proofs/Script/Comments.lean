import Codebook.Proofs.Proto.Lexing
import Codebook.Proofs.Script.Page
import Codebook.Script.ClassText
import Codebook.Text.Blank

namespace Codebook.Script

open Codebook.Text Codebook.Proto

-- What is left of a page without its comments.

-- A text without its block comments, each from its opening to the next closing. The text may
-- begin inside a comment.
def withoutComments : Bool → List Char → List Char
  | _, [] => []
  | false, '/' :: '*' :: rest => withoutComments true rest
  | true, '*' :: '/' :: rest => withoutComments false rest
  | false, c :: rest => c :: withoutComments false rest
  | true, _ :: rest => withoutComments true rest

-- The lines of a text that are not blank when its comments are taken out
def codeLines (text : List Char) : List (List Char) :=
  (splitOn '\n' (withoutComments false text)).filter fun line => !line.all isBlank

theorem withoutComments_append {line : List Char} (h : '/' ∉ line) (rest : List Char) :
    withoutComments false (line ++ rest) = line ++ withoutComments false rest := by
  induction line with
  | nil => rfl
  | cons c line ih =>
      obtain ⟨hc, hline⟩ := not_or.mp (mt List.mem_cons.mpr h)
      have hopens : ∀ more, c = '/' → line ++ rest = '*' :: more → False :=
        fun _ hslash _ => hc hslash.symm
      rw [List.cons_append, withoutComments.eq_4 _ _ hopens, ih hline, List.cons_append]

theorem withoutComments_inside (text : List Char) :
    withoutComments true text
      = ((splitComment text).map fun (_, rest) => withoutComments false rest).getD [] := by
  fun_induction splitComment text with
  | case1 => rfl
  | case2 rest => simp [withoutComments]
  | case3 c rest hends ih =>
      rw [withoutComments.eq_5 _ _ hends, ih, Option.map_map]
      rfl

-- A comment leaves nothing.
theorem withoutComments_comment {body : List Char} (h : IsInside body) (rest : List Char) :
    withoutComments false ('/' :: '*' :: (body ++ '*' :: '/' :: rest))
      = withoutComments false rest := by
  rw [withoutComments, withoutComments_inside, h]
  simp [splitComment]

theorem codeLines_nil : codeLines [] = [] := rfl

theorem codeLines_line {line : List Char} (hslash : '/' ∉ line) (hfeed : '\n' ∉ line)
    (rest : List Char) :
    codeLines (line ++ '\n' :: rest)
      = (if line.all isBlank then [] else [line]) ++ codeLines rest := by
  have hstrip : withoutComments false (line ++ '\n' :: rest)
      = line ++ '\n' :: withoutComments false rest := by
    rw [withoutComments_append hslash]
    rfl
  rw [codeLines, hstrip, splitOn_append_separator hfeed, List.filter_cons]
  cases line.all isBlank <;> rfl

-- A comment that has its lines for itself leaves nothing.
theorem codeLines_comment {margin body : List Char} (hm : ∀ c ∈ margin, c = ' ')
    (hb : IsInside body) (rest : List Char) :
    codeLines (margin ++ '/' :: '*' :: (body ++ '*' :: '/' :: '\n' :: rest))
      = codeLines rest := by
  have hslash : '/' ∉ margin := fun h => absurd (hm _ h) (by decide)
  have hfeed : '\n' ∉ margin := fun h => absurd (hm _ h) (by decide)
  have hblank : margin.all isBlank := by
    refine List.all_eq_true.mpr fun c hc => ?_
    rw [hm c hc]
    rfl
  have hstrip : withoutComments false (margin ++ '/' :: '*' :: (body ++ '*' :: '/' :: '\n' :: rest))
      = withoutComments false (margin ++ '\n' :: rest) := by
    rw [withoutComments_append hslash, withoutComments_comment hb, withoutComments_append hslash]
  rw [codeLines, hstrip, ← codeLines, codeLines_line hslash hfeed, if_pos hblank, List.nil_append]

-- A text without the signs that open a comment or end a line
def isUnbroken (text : List Char) : Bool := text.all fun c => c != '/' && c != '\n'

@[simp] theorem isUnbroken_nil : isUnbroken [] = true := rfl

@[simp] theorem isUnbroken_cons (c : Char) (rest : List Char) :
    isUnbroken (c :: rest) = (c != '/' && c != '\n' && isUnbroken rest) := List.all_cons

@[simp] theorem isUnbroken_append (front behind : List Char) :
    isUnbroken (front ++ behind) = (isUnbroken front && isUnbroken behind) := List.all_append

theorem isUnbroken_of_notMem {text : List Char} (hslash : '/' ∉ text) (hfeed : '\n' ∉ text) :
    isUnbroken text := by
  refine List.all_eq_true.mpr fun c hc => ?_
  simp only [Bool.and_eq_true, bne_iff_ne]
  constructor
  · rintro rfl
    exact hslash hc
  · rintro rfl
    exact hfeed hc

-- Code begins with a sign that is not blank and has no slash.
def isCode (text : List Char) : Bool := text.head?.any (!isBlank ·) && isUnbroken text

def Row.isCode (row : Row) : Bool := Script.isCode row.text.toList

-- A row that a comment goes on in
structure Row.IsInner (row : Row) : Prop where
  notCode : row.isCode = false
  inside : IsInside (row.text.toList ++ ['\n'])

-- Rows of code and comments, where every comment has its rows for itself
inductive Commented : List Row → Prop
  | nil : Commented []
  | code {row : Row} {rows : List Row} (h : row.isCode) (hr : Commented rows) :
      Commented (row :: rows)
  | blank {row : Row} {rows : List Row} (h : row.text = "") (hr : Commented rows) :
      Commented (row :: rows)
  | remark {row : Row} {rows : List Row} {body : List Char}
      (h : row.text.toList = '/' :: '*' :: (body ++ ['*', '/'])) (hb : IsInside body)
      (hr : Commented rows) : Commented (row :: rows)
  | comment {first last : Row} {lines rows : List Row} {opening : List Char}
      (hf : first.text.toList = '/' :: '*' :: opening) (ho : IsInside (opening ++ ['\n']))
      (hi : ∀ line ∈ lines, line.IsInner) (hl : last.text = " */") (hr : Commented rows) :
      Commented (first :: (lines ++ last :: rows))

theorem Commented.append {front behind : List Row} (hf : Commented front)
    (hb : Commented behind) : Commented (front ++ behind) := by
  induction hf with
  | nil => exact hb
  | code h _ ih => exact .code h ih
  | blank h _ ih => exact .blank h ih
  | remark h hbody _ ih => exact .remark h hbody ih
  | comment hf ho hi hl _ ih =>
      rw [List.cons_append, List.append_assoc, List.cons_append]
      exact .comment hf ho hi hl ih

theorem Commented.flatMap {α : Type} {rowsOf : α → List Row} {items : List α}
    (h : ∀ item ∈ items, Commented (rowsOf item)) : Commented (items.flatMap rowsOf) := by
  induction items with
  | nil => exact .nil
  | cons item rest ih =>
      obtain ⟨hitem, hrest⟩ := List.forall_mem_cons.mp h
      exact hitem.append (ih hrest)

theorem Commented.indented {rows : List Row} (h : Commented rows) :
    Commented (indented rows) := by
  induction h with
  | nil => exact .nil
  | code h _ ih => exact .code h ih
  | blank h _ ih => exact .blank h ih
  | remark h hb _ ih => exact .remark h hb ih
  | @comment first last lines rows opening hf ho hi hl _ ih =>
      rw [Script.indented, List.map_cons, List.map_append, List.map_cons]
      refine .comment hf ho (fun line hm => ?_) hl ih
      obtain ⟨inner, hinner, rfl⟩ := List.mem_map.mp hm
      exact ⟨(hi inner hinner).notCode, (hi inner hinner).inside⟩

theorem commented_of_code {rows : List Row} (h : ∀ row ∈ rows, row.isCode) : Commented rows := by
  induction rows with
  | nil => exact .nil
  | cons row rest ih =>
      obtain ⟨hrow, hrest⟩ := List.forall_mem_cons.mp h
      exact .code hrow (ih hrest)

theorem Row.exists_margin (row : Row) :
    ∃ margin, (∀ c ∈ margin, c = ' ') ∧ row.written = margin ++ row.text.toList := by
  refine ⟨_, fun c hc => ?_, rfl⟩
  split at hc
  · simp at hc
  · exact List.eq_of_mem_replicate hc

theorem writtenRows_cons (row : Row) (rows : List Row) (rest : List Char) :
    writtenRows (row :: rows) ++ rest = row.written ++ '\n' :: (writtenRows rows ++ rest) := by
  simp [writtenRows]

theorem isInside_writtenRows {lines : List Row} (h : ∀ line ∈ lines, line.IsInner) :
    IsInside (writtenRows lines) := by
  induction lines with
  | nil => exact IsInside.nil
  | cons line rest ih =>
      obtain ⟨hline, hrest⟩ := List.forall_mem_cons.mp h
      obtain ⟨margin, hm, hwritten⟩ := line.exists_margin
      rw [writtenRows, List.flatMap_cons, hwritten, List.append_assoc margin]
      have hmargin : IsInside margin := .of_notMem fun h => absurd (hm _ h) (by decide)
      exact (hmargin.append hline.inside).append (ih hrest)

theorem codeLines_code {row : Row} (h : row.isCode) (rest : List Char) :
    codeLines (row.written ++ '\n' :: rest) = row.written :: codeLines rest := by
  obtain ⟨margin, hm, hwritten⟩ := row.exists_margin
  obtain ⟨hhead, hall⟩ := Bool.and_eq_true_iff.mp h
  have hsigns : ∀ c ∈ row.written, c ≠ '/' ∧ c ≠ '\n' := by
    intro c hc
    rcases List.mem_append.mp (hwritten ▸ hc) with hc | hc
    · rw [hm c hc]
      decide
    · simpa using List.all_eq_true.mp hall c hc
  have hvisible : row.written.all isBlank = false := by
    obtain ⟨c, hc, hblank⟩ := (Option.any_eq_true _ _).mp hhead
    refine List.all_eq_false.mpr ⟨c, ?_, by simpa using hblank⟩
    rw [hwritten]
    exact List.mem_append_right _ (List.mem_of_mem_head? hc)
  rw [codeLines_line (fun hc => (hsigns _ hc).1 rfl) (fun hc => (hsigns _ hc).2 rfl), hvisible]
  rfl

theorem isCode_of_slash {row : Row} {text : List Char} (h : row.text.toList = '/' :: text) :
    row.isCode = false := by
  simp [Row.isCode, isCode, h]

-- A comment goes from its opening to the star of the last row.
theorem exists_comment {first last : Row} {lines : List Row} {opening : List Char}
    (hf : first.text.toList = '/' :: '*' :: opening) (ho : IsInside (opening ++ ['\n']))
    (hi : ∀ line ∈ lines, line.IsInner) (hl : last.text = " */") :
    ∃ margin body, (∀ c ∈ margin, c = ' ') ∧ IsInside body ∧ ∀ rows rest,
      writtenRows (first :: (lines ++ last :: rows)) ++ rest
        = margin ++ '/' :: '*' :: (body ++ '*' :: '/' :: '\n' :: (writtenRows rows ++ rest)) := by
  obtain ⟨margin, hm, hfirst⟩ := first.exists_margin
  obtain ⟨inset, hinset, hlast⟩ := last.exists_margin
  have hspaces : IsInside (inset ++ [' ']) := by
    refine .of_notMem fun h => ?_
    rcases List.mem_append.mp h with h | h
    · exact absurd (hinset _ h) (by decide)
    · simp at h
  have hbody := ho.append ((isInside_writtenRows hi).append hspaces)
  rw [List.append_assoc] at hbody
  refine ⟨margin, _, hm, hbody, fun rows rest => ?_⟩
  rw [writtenRows_cons, hfirst, hf]
  simp [writtenRows, hlast, hl]

-- What is left of rows are the rows of code.
theorem codeLines_writtenRows {rows : List Row} (h : Commented rows) (rest : List Char) :
    codeLines (writtenRows rows ++ rest)
      = (rows.filter Row.isCode).map Row.written ++ codeLines rest := by
  induction h with
  | nil => rfl
  | code h hr ih =>
      rw [writtenRows_cons, codeLines_code h, ih, List.filter_cons_of_pos h]
      rfl
  | @blank row rows h hr ih =>
      have hwritten : row.written = [] := by simp [Row.written, h]
      have hcode : ¬ row.isCode := by simp [Row.isCode, isCode, h]
      rw [writtenRows_cons, hwritten, codeLines_line (by simp) (by simp), ih,
        List.filter_cons_of_neg hcode]
      rfl
  | @remark row rows body h hb hr ih =>
      obtain ⟨margin, hm, hwritten⟩ := row.exists_margin
      have hcode : ¬ row.isCode := by simp [isCode_of_slash h]
      have hcomment := codeLines_comment hm hb (writtenRows rows ++ rest)
      rw [writtenRows_cons, hwritten, h, List.filter_cons_of_neg hcode, ← ih, ← hcomment]
      simp
  | @comment first last lines rows opening hf ho hi hl hr ih =>
      have hcode : (first :: (lines ++ last :: rows)).filter Row.isCode
          = rows.filter Row.isCode := by
        have hnone : lines.filter Row.isCode = [] :=
          List.filter_eq_nil_iff.mpr fun line hline => by simp [(hi line hline).notCode]
        have hend : last.isCode = false := by rw [Row.isCode, hl]; decide
        simp [isCode_of_slash hf, hnone, hend]
      obtain ⟨margin, body, hm, hbody, hwritten⟩ := exists_comment hf ho hi hl
      rw [hwritten, codeLines_comment hm hbody, ih, hcode]

theorem codeLines_ofRows {rows : List Row} (h : Commented rows) :
    codeLines (Page.ofRows rows).text.toList = (rows.filter Row.isCode).map Row.written := by
  have hrows := codeLines_writtenRows h []
  rw [Page.toList_text_ofRows]
  simpa [codeLines_nil] using hrows

end Codebook.Script
