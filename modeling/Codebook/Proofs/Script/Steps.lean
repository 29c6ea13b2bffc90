import Codebook.Proofs.Script.Page
import Codebook.Script.ClassText

namespace Codebook.Script

open Codebook.Text

-- What is on a page after any steps of writing, also after lines that are written in pieces and
-- after levels that change within a line.

inductive Step where
  | push (text : String)
  | newline
  | line (text : String)
  | lineFrom (text : String) (declared : Nat)
  | blank
  | indent
  | dedent
deriving Repr, DecidableEq

-- A text with the level at which it was written
structure Pushed where
  level : Nat
  text : String
deriving Repr, DecidableEq

namespace Step

def text : Step → String
  | push text | line text | lineFrom text _ => text
  | newline | blank | indent | dedent => ""

def pushed (level : Nat) : Step → List Pushed
  | push text | line text | lineFrom text _ => [⟨level, text⟩]
  | newline | blank | indent | dedent => []

def endsLine : Step → Bool
  | newline | line _ | lineFrom _ _ | blank => true
  | push _ | indent | dedent => false

def declared? : Step → Option Nat
  | lineFrom _ declared => some declared
  | push _ | newline | line _ | blank | indent | dedent => none

def isTraced (step : Step) : Bool := step.declared?.isSome

-- There is no level above the outermost.
def levelBehind (level : Nat) : Step → Nat
  | indent => level + 1
  | dedent => level - 1
  | push _ | newline | line _ | lineFrom _ _ | blank => level

end Step

-- The texts of each line, where some stand on the first one already
def linesFrom (level : Nat) (begun : List Pushed) : List Step → List (List Pushed)
  | [] => [begun]
  | step :: rest =>
    let texts := begun ++ step.pushed level
    if step.endsLine then texts :: linesFrom (step.levelBehind level) [] rest
    else linesFrom (step.levelBehind level) texts rest

def Pushed.isFilled (pushed : Pushed) : Bool := !pushed.text.isEmpty

def contents (texts : List Pushed) : List Char := texts.flatMap fun pushed => pushed.text.toList

-- The first text that is not empty tells the indentation of its line.
def writtenLine (texts : List Pushed) : List Char :=
  match texts.find? Pushed.isFilled with
  | none => []
  | some first => List.replicate (4 * first.level) ' ' ++ contents texts

theorem contents_eq_nil_iff {texts : List Pushed} :
    contents texts = [] ↔ texts.find? Pushed.isFilled = none := by
  simp [contents, List.flatMap_eq_nil_iff, List.find?_eq_none, Pushed.isFilled]

theorem isEmpty_writtenLine (texts : List Pushed) :
    (writtenLine texts).isEmpty = (texts.find? Pushed.isFilled).isNone := by
  unfold writtenLine
  cases hfirst : texts.find? Pushed.isFilled with
  | none => rfl
  | some first =>
      have hne : contents texts ≠ [] := fun h => by
        rw [contents_eq_nil_iff.mp h] at hfirst
        exact nomatch hfirst
      simp [hne]

-- A further text is indented when nothing stands in front of it.
theorem writtenLine_append (texts : List Pushed) (pushed : Pushed) :
    writtenLine (texts ++ [pushed])
      = writtenLine texts ++
        (if (writtenLine texts).isEmpty && pushed.isFilled
          then List.replicate (4 * pushed.level) ' ' else []) ++ pushed.text.toList := by
  have hcontents : contents (texts ++ [pushed]) = contents texts ++ pushed.text.toList := by
    simp [contents]
  rw [isEmpty_writtenLine]
  unfold writtenLine
  rw [List.find?_append, hcontents]
  cases hfirst : texts.find? Pushed.isFilled with
  | some first => simp
  | none =>
      rw [contents_eq_nil_iff.mpr hfirst]
      by_cases hp : pushed.isFilled
      · simp [hp]
      · have htext : pushed.text = "" := by simpa [Pushed.isFilled] using hp
        simp [Pushed.isFilled, htext]

theorem no_lineFeed_writtenLine {texts : List Pushed}
    (h : ∀ pushed ∈ texts, '\n' ∉ pushed.text.toList) : '\n' ∉ writtenLine texts := by
  unfold writtenLine
  split
  · exact List.not_mem_nil
  · intro hm
    rcases List.mem_append.mp hm with hm | hm
    · exact absurd (List.eq_of_mem_replicate hm) (by decide)
    · obtain ⟨pushed, hp, hm⟩ := List.mem_flatMap.mp hm
      exact h pushed hp hm

namespace Page

def step (page : Page) : Step → Page
  | .push text => page.push text
  | .newline => page.newline
  | .line text => page.line text
  | .lineFrom text declared => page.lineFrom text declared
  | .blank => page.newline
  | .indent => page.indent
  | .dedent => page.dedent

def run (page : Page) (steps : List Step) : Page := steps.foldl step page

theorem run_cons (page : Page) (step : Step) (rest : List Step) :
    page.run (step :: rest) = (page.step step).run rest := rfl

theorem run_append (page : Page) (front behind : List Step) :
    page.run (front ++ behind) = (page.run front).run behind := List.foldl_append

-- A page holds lines that were ended and the texts of one that is begun.
structure Holds (page : Page) (ended : List (List Pushed)) (begun : List Pushed) : Prop where
  lines : page.lines.toList = ended.map fun texts => String.ofList (writtenLine texts ++ ['\n'])
  pending : page.pending.toList = writtenLine begun

variable {page : Page} {ended : List (List Pushed)} {begun : List Pushed}

theorem holds_empty : Holds {} [] [] := ⟨rfl, rfl⟩

theorem Holds.push (h : page.Holds ended begun) (text : String) :
    (page.push text).Holds ended (begun ++ [⟨page.level, text⟩]) := by
  refine ⟨h.lines, ?_⟩
  have hempty : (writtenLine begun).isEmpty = page.pending.isEmpty := by
    rw [← h.pending, Bool.eq_iff_iff]
    simp
  have hpush : (page.push text).pending = page.pending ++
      (if page.pending.isEmpty && !text.isEmpty then indentation page.level else "") ++ text := rfl
  rw [hpush, writtenLine_append, hempty, ← h.pending, Pushed.isFilled]
  cases page.pending.isEmpty && !text.isEmpty <;> simp [indentation]

theorem Holds.newline (h : page.Holds ended begun) :
    page.newline.Holds (ended ++ [begun]) [] := by
  refine ⟨?_, rfl⟩
  have hline : page.pending ++ "\n" = String.ofList (writtenLine begun ++ ['\n']) := by
    rw [← h.pending, ← String.toList_inj]
    simp
  simp [Page.newline, h.lines, hline]

-- What one step does to what a page holds.
theorem Holds.step (h : page.Holds ended begun) (step : Step) :
    (page.step step).level = step.levelBehind page.level ∧
    if step.endsLine then
      (page.step step).Holds (ended ++ [begun ++ step.pushed page.level]) []
    else (page.step step).Holds ended (begun ++ step.pushed page.level) := by
  cases step with
  | push text => exact ⟨rfl, h.push text⟩
  | newline => exact ⟨rfl, by simpa [Page.step, Step.pushed, Step.endsLine] using h.newline⟩
  | line text => exact ⟨rfl, (h.push text).newline⟩
  | lineFrom text declared =>
      have hmarked : Holds { page with marks := page.marks.push ⟨page.number, declared⟩ }
          ended begun :=
        ⟨h.lines, h.pending⟩
      exact ⟨rfl, (hmarked.push text).newline⟩
  | blank => exact ⟨rfl, by simpa [Page.step, Step.pushed, Step.endsLine] using h.newline⟩
  | indent => exact ⟨rfl, h.lines, by simpa [Page.step, Page.indent, Step.pushed] using h.pending⟩
  | dedent => exact ⟨rfl, h.lines, by simpa [Page.step, Page.dedent, Step.pushed] using h.pending⟩

-- A page holds the lines of all the steps, the last of them begun.
theorem Holds.run (h : page.Holds ended begun) (steps : List Step) :
    ∃ lines last, linesFrom page.level begun steps = lines ++ [last] ∧
      (page.run steps).Holds (ended ++ lines) last := by
  induction steps generalizing page ended begun with
  | nil => exact ⟨[], begun, rfl, by simpa [Page.run] using h⟩
  | cons step rest ih =>
      obtain ⟨hlevel, hstep⟩ := h.step step
      rw [linesFrom, ← hlevel, run_cons]
      split at hstep
      · rename_i hends
        obtain ⟨lines, last, hlines, hrun⟩ := ih hstep
        rw [if_pos hends, hlines]
        exact ⟨_ :: lines, last, rfl, by simpa using hrun⟩
      · rename_i hends
        obtain ⟨lines, last, hlines, hrun⟩ := ih hstep
        rw [if_neg hends]
        exact ⟨lines, last, hlines, hrun⟩

theorem Holds.toList_text (h : page.Holds ended begun) :
    page.text.toList
      = (ended.flatMap fun texts => writtenLine texts ++ ['\n']) ++ writtenLine begun := by
  simp [Page.text, h.lines, h.pending, List.flatMap_def, Function.comp_def]

-- Steps only add marks, each with the number of lines that were ended in front of it.

theorem number_step (page : Page) (step : Step) :
    (page.step step).number = page.number + if step.endsLine then 1 else 0 := by
  cases step <;>
    simp [Page.step, Step.endsLine, push, Page.newline, line, lineFrom, indent, dedent]

theorem marks_step (page : Page) (step : Step) :
    (page.step step).marks.toList
      = page.marks.toList ++ (step.declared?.map (Mark.mk page.number)).toList := by
  cases step <;>
    simp [Page.step, Step.declared?, push, Page.newline, line, lineFrom, indent, dedent]

theorem number_run (page : Page) (steps : List Step) :
    (page.run steps).number = page.number + steps.countP Step.endsLine := by
  induction steps generalizing page with
  | nil => rfl
  | cons step rest ih =>
      rw [run_cons, ih, number_step, List.countP_cons]
      omega

theorem exists_marks_run (page : Page) (steps : List Step) :
    ∃ more, (page.run steps).marks.toList = page.marks.toList ++ more ∧
      more.length = steps.countP Step.isTraced := by
  induction steps generalizing page with
  | nil => exact ⟨[], (List.append_nil _).symm, rfl⟩
  | cons step rest ih =>
      obtain ⟨more, hmore, hlength⟩ := ih (page.step step)
      refine ⟨_, by rw [run_cons, hmore, marks_step, List.append_assoc], ?_⟩
      rw [List.length_append, hlength, List.countP_cons]
      cases step <;> simp [Step.declared?, Step.isTraced, Nat.add_comm]

end Page

-- Each step that ends a line adds one to the lines, and each text is on the line on which it was
-- written.

theorem length_linesFrom (level : Nat) (begun : List Pushed) (steps : List Step) :
    (linesFrom level begun steps).length = steps.countP Step.endsLine + 1 := by
  induction steps generalizing level begun with
  | nil => rfl
  | cons step rest ih =>
      rw [linesFrom, List.countP_cons]
      split <;> simp [ih]

theorem exists_linesFrom_append (level : Nat) (begun : List Pushed) (front behind : List Step) :
    ∃ lines level' texts, linesFrom level begun (front ++ behind)
        = lines ++ linesFrom level' texts behind ∧
      lines.length = front.countP Step.endsLine := by
  induction front generalizing level begun with
  | nil => exact ⟨[], level, begun, rfl, rfl⟩
  | cons step rest ih =>
      rw [List.cons_append, linesFrom, List.countP_cons]
      split
      · obtain ⟨lines, level', texts, hlines, hlength⟩ := ih (step.levelBehind level) []
        exact ⟨_ :: lines, level', texts, by rw [hlines, List.cons_append], by simp [hlength]⟩
      · obtain ⟨lines, level', texts, hlines, hlength⟩ :=
          ih (step.levelBehind level) (begun ++ step.pushed level)
        exact ⟨lines, level', texts, hlines, hlength⟩

theorem text_of_mem_pushed {level : Nat} {step : Step} {pushed : Pushed}
    (h : pushed ∈ step.pushed level) : pushed.text = step.text := by
  cases step <;> simp_all [Step.pushed, Step.text]

theorem no_lineFeed_linesFrom (level : Nat) {begun : List Pushed} {steps : List Step}
    (hb : ∀ pushed ∈ begun, '\n' ∉ pushed.text.toList)
    (hs : ∀ step ∈ steps, '\n' ∉ step.text.toList) :
    ∀ line ∈ linesFrom level begun steps, '\n' ∉ writtenLine line := by
  induction steps generalizing level begun with
  | nil => exact List.forall_mem_singleton.mpr (no_lineFeed_writtenLine hb)
  | cons step rest ih =>
      obtain ⟨hstep, hrest⟩ := List.forall_mem_cons.mp hs
      have htexts : ∀ pushed ∈ begun ++ step.pushed level, '\n' ∉ pushed.text.toList := by
        refine List.forall_mem_append.mpr ⟨hb, fun pushed hp => ?_⟩
        rwa [text_of_mem_pushed hp]
      rw [linesFrom]
      split
      · exact List.forall_mem_cons.mpr
          ⟨no_lineFeed_writtenLine htexts, ih _ (List.forall_mem_nil _) hrest⟩
      · exact ih _ htexts hrest

theorem splitOn_text_run {steps : List Step} (h : ∀ step ∈ steps, '\n' ∉ step.text.toList) :
    splitOn '\n' (Page.run {} steps).text.toList = (linesFrom 0 [] steps).map writtenLine := by
  obtain ⟨ended, begun, hlines, hrun⟩ := Page.holds_empty.run steps
  have hall : linesFrom 0 [] steps = ended ++ [begun] := hlines
  have hfeed := no_lineFeed_linesFrom 0 (List.forall_mem_nil _) h
  rw [hall, List.forall_mem_append, List.forall_mem_singleton] at hfeed
  have htext : (Page.run {} steps).text.toList
      = ((ended.map writtenLine).flatMap fun line => line ++ ['\n']) ++ writtenLine begun := by
    rw [hrun.toList_text, List.nil_append, List.flatMap_map]
  rw [htext, splitOn_flatMap (List.forall_mem_map.mpr hfeed.1) hfeed.2, hall, List.map_append,
    List.map_singleton]

-- Steps whose texts have no line feed write lines, each by the texts that were written on it, and
-- make marks, each with the line that ends with its text.
theorem lines_and_marks_of_steps {steps : List Step}
    (h : ∀ step ∈ steps, '\n' ∉ step.text.toList) :
    (Page.run {} steps).text.toList.count '\n' = steps.countP Step.endsLine ∧
    splitOn '\n' (Page.run {} steps).text.toList = (linesFrom 0 [] steps).map writtenLine ∧
    (Page.run {} steps).marks.size = steps.countP Step.isTraced ∧
    ∀ front text declared behind, steps = front ++ .lineFrom text declared :: behind →
      (Page.run {} steps).marks[front.countP Step.isTraced]?
        = some ⟨front.countP Step.endsLine, declared⟩ ∧
      ∃ line, (splitOn '\n' (Page.run {} steps).text.toList)[front.countP Step.endsLine]?
        = some line ∧ text.toList <:+ line := by
  have hlines := splitOn_text_run h
  refine ⟨?_, hlines, ?_, ?_⟩
  · have hlength := congrArg List.length hlines
    rw [length_splitOn, List.length_map, length_linesFrom] at hlength
    exact Nat.succ.inj hlength
  · obtain ⟨more, hmore, hlength⟩ := Page.exists_marks_run {} steps
    rw [← Array.length_toList, hmore]
    exact hlength
  · rintro front text declared behind rfl
    obtain ⟨made, hmade, hcount⟩ := Page.exists_marks_run {} front
    obtain ⟨more, hmore, -⟩ :=
      Page.exists_marks_run ((Page.run {} front).step (.lineFrom text declared)) behind
    constructor
    · have hnumber : (Page.run {} front).number = front.countP Step.endsLine :=
        (Page.number_run {} front).trans (Nat.zero_add _)
      rw [Page.run_append, Page.run_cons, ← Array.getElem?_toList, hmore, Page.marks_step, hmade,
        ← hcount, hnumber]
      simp [Step.declared?]
    · obtain ⟨lines, level, texts, hall, hlength⟩ :=
        exists_linesFrom_append 0 [] front (.lineFrom text declared :: behind)
      refine ⟨writtenLine (texts ++ [⟨level, text⟩]), ?_, ?_⟩
      · rw [hlines, hall, List.getElem?_map, ← hlength, List.getElem?_append_right (Nat.le_refl _),
          Nat.sub_self]
        rfl
      · rw [writtenLine_append]
        exact List.suffix_append _ _

-- A line in pieces with a level that changes in the middle, empty texts, and a line that is begun
def piecemeal : List Step :=
  [.dedent, .push "a", .indent, .push "", .push " b", .lineFrom "c" 7, .push "", .blank,
    .lineFrom "d" 9, .newline, .push "e"]

theorem lines_and_marks_of_piecemeal :
    (∀ step ∈ piecemeal, '\n' ∉ step.text.toList) ∧
    (Page.run {} piecemeal).text = "a bc\n\n    d\n\n    e" ∧
    (Page.run {} piecemeal).text.toList.count '\n' = piecemeal.countP Step.endsLine ∧
    splitOn '\n' (Page.run {} piecemeal).text.toList = (linesFrom 0 [] piecemeal).map writtenLine ∧
    (Page.run {} piecemeal).marks.size = 2 ∧
    (Page.run {} piecemeal).marks[1]? = some ⟨2, 9⟩ ∧
    ∃ line, (splitOn '\n' (Page.run {} piecemeal).text.toList)[2]? = some line ∧
      "d".toList <:+ line := by
  have htexts : ∀ step ∈ piecemeal, '\n' ∉ step.text.toList := by decide
  obtain ⟨hcount, hlines, hsize, hmarks⟩ := lines_and_marks_of_steps htexts
  refine ⟨htexts, by decide +kernel, hcount, hlines, hsize, ?_⟩
  exact hmarks [.dedent, .push "a", .indent, .push "", .push " b", .lineFrom "c" 7, .push "",
    .blank] "d" 9 [.newline, .push "e"] rfl

-- Rows carry their levels. They are written by steps that go from the level of each to that of the
-- next one: up behind a brace that is opened, and down in front of the one that closes it.

def toLevel (level other : Nat) : List Step :=
  List.replicate (other - level) .indent ++ List.replicate (level - other) .dedent

def Row.step (row : Row) : Step :=
  match row.declared with
  | some declared => .lineFrom row.text declared
  | none => if row.text.isEmpty then .blank else .line row.text

def stepsFrom (level : Nat) : List Row → List Step
  | [] => []
  | row :: rest => toLevel level row.level ++ row.step :: stepsFrom row.level rest

namespace Page

theorem run_indents (page : Page) (count : Nat) :
    page.run (List.replicate count .indent) = { page with level := page.level + count } := by
  induction count generalizing page with
  | zero => rfl
  | succ count ih =>
      rw [List.replicate_succ, run_cons, ih]
      simp [step, indent, Nat.add_comm, Nat.add_left_comm]

theorem run_dedents (page : Page) (count : Nat) :
    page.run (List.replicate count .dedent) = { page with level := page.level - count } := by
  induction count generalizing page with
  | zero => rfl
  | succ count ih =>
      rw [List.replicate_succ, run_cons, ih]
      simp [step, dedent, Nat.sub_sub, Nat.add_comm]

theorem run_toLevel (page : Page) (other : Nat) :
    page.run (toLevel page.level other) = { page with level := other } := by
  have hlevel : page.level + (other - page.level) - (page.level - other) = other := by
    omega
  rw [toLevel, run_append, run_indents, run_dedents]
  simp [hlevel]

theorem step_row (page : Page) (row : Row) :
    { page with level := row.level }.step row.step = page.addRow row := by
  obtain ⟨level, text, declared⟩ := row
  cases declared with
  | some declared => rfl
  | none =>
      cases htext : text.isEmpty with
      | false => simp [Row.step, step, addRow, htext]
      | true =>
          obtain rfl := String.isEmpty_iff.mp htext
          simp [Row.step, step, addRow, line, push]

theorem run_stepsFrom (page : Page) (rows : List Row) :
    page.run (stepsFrom page.level rows) = rows.foldl addRow page := by
  induction rows generalizing page with
  | nil => rfl
  | cons row rest ih =>
      have hlevel : (page.addRow row).level = row.level := by
        unfold addRow
        split <;> rfl
      rw [stepsFrom, run_append, run_toLevel, run_cons, step_row, ← hlevel, ih, List.foldl_cons]

end Page

-- The class is written by steps, from the outermost level on.
theorem classPage_eq_run (style : ClassStyle) (model : ClassModel) :
    classPage style model = Page.run {} (stepsFrom 0 (scriptRows style model)) :=
  (Page.run_stepsFrom {} (scriptRows style model)).symm

end Codebook.Script
