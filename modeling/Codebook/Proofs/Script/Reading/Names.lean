import Codebook.Proofs.Script.Reading.Theorems

namespace Codebook.Script

open Codebook.Text

-- What a class says by names: its members, wherever a line names one, and the texts in quotes.

namespace Reading

-- The member that a line names, in a label, in an answer or in a definition
def named? (reading : Reading) (line : List Char) : Option (List Char) :=
  (between? ("case ".toList ++ reading.className ++ ['.']) [':'] line).or
    ((between? ("return ".toList ++ reading.className ++ ['.']) [';'] line).or
      ((reading.definition? line).map Prod.fst))

def members (reading : Reading) : List (List Char) := reading.lines.filterMap reading.named?

-- The text between the quotes of a line that returns one
def quoted? (line : List Char) : Option (List Char) :=
  between? "return \"".toList "\";".toList line

def quoted (reading : Reading) : List (List Char) := reading.lines.filterMap quoted?

end Reading

theorem not_isPrefix_of_head {c d : Char} {front line : List Char} (hf : front.head? = some c)
    (hl : line.head? = some d) (hne : c ≠ d) : ¬ front <+: line := by
  rintro ⟨rest, rfl⟩
  rw [List.head?_append, hf] at hl
  exact hne (Option.some.inj hl)

-- A quiet line names nothing.

theorem returnsName_of_isPrefix {c : Char} {front line : List Char}
    (h : "return ".toList ++ c :: front <+: line) (hc : c == '"' || c.isUpper) :
    returnsName line := by
  obtain ⟨rest, rfl⟩ := h
  simp only [returnsName, Bool.and_eq_true, List.isPrefixOf_iff_prefix]
  refine ⟨⟨c :: front ++ rest, by simp⟩, ?_⟩
  simpa using hc

theorem not_isPrefix_of_isQuiet {c : Char} {front line : List Char} (h : isQuiet line)
    (hc : c == '"' || c.isUpper) : ¬ "return ".toList ++ c :: front <+: line := by
  intro hp
  have hreturns := returnsName_of_isPrefix hp hc
  cases line with
  | nil => simp at hp
  | cons d rest => simp [isQuiet, hreturns] at h

theorem quoted?_of_isQuiet {line : List Char} (h : isQuiet line) :
    Reading.quoted? line = none := by
  have hquote : ¬ "return ".toList ++ ['"'] <+: line := not_isPrefix_of_isQuiet h (by decide)
  exact between?_eq_none hquote _

-- What the lines of a class name

theorem head?_quoteOf : "return \"".toList.head? = some 'r' := rfl

theorem head?_caseOf (style : ClassStyle) :
    ("case ".toList ++ style.className.toList ++ ['.']).head? = some 'c' := rfl

theorem head?_returnOf (style : ClassStyle) :
    ("return ".toList ++ style.className.toList ++ ['.']).head? = some 'r' := rfl

theorem named?_nameLabel (style : ClassStyle) (model : ClassModel) (name : String) :
    (readingOf style model).named? (nameLabel style name) = some (memberText style name) := by
  rw [Reading.named?, className_readingOf, between?_nameLabel, Option.some_or]

theorem named?_codeAnswer (style : ClassStyle) (model : ClassModel) (name : String) :
    (readingOf style model).named? (codeAnswer style name) = some (memberText style name) := by
  have hcase := not_isPrefix_of_head (head?_caseOf style)
    (show (codeAnswer style name).head? = some 'r' from rfl) (by decide)
  rw [Reading.named?, className_readingOf, between?_eq_none hcase, between?_codeAnswer,
    Option.none_or, Option.some_or]

theorem quoted?_label {line : List Char} (h : line.head? = some 'c') :
    Reading.quoted? line = none :=
  between?_eq_none (not_isPrefix_of_head head?_quoteOf h (by decide)) _

theorem quoted?_nameAnswer (name : String) :
    Reading.quoted? (nameAnswer name) = some name.toList := between?_nameAnswer name

section

variable {style : ClassStyle} (hs : style.IsPlain) (model : ClassModel)

include hs

-- A definition begins with a capital.
theorem head?_definitionLine (constant : Constant) :
    ∃ c, (definitionLine style constant).head? = some c ∧ c.isUpper := by
  obtain ⟨c, rest, hname, hup, -⟩ := hs.className
  refine ⟨c, ?_, hup⟩
  unfold definitionLine
  rw [hname]
  rfl

theorem named?_eq_none {line : List Char}
    (hc : ¬ "case ".toList ++ style.className.toList ++ ['.'] <+: line)
    (hr : ¬ "return ".toList ++ style.className.toList ++ ['.'] <+: line) (hd : OpensLow line) :
    (readingOf style model).named? line = none := by
  rw [Reading.named?, className_readingOf, between?_eq_none hc, between?_eq_none hr,
    definition?_eq_none hs hd]
  rfl

theorem named?_of_isQuiet {line : List Char} (h : isQuiet line) :
    (readingOf style model).named? line = none := by
  obtain ⟨c, rest, hname, hup, -⟩ := hs.className
  refine named?_eq_none hs model (fun hp => ?_) ?_ (opensLow_of_isQuiet h)
  · rw [List.append_assoc] at hp
    exact not_isLabel_of_isQuiet h ((List.prefix_append _ _).trans hp)
  · rw [hname, List.append_assoc, List.cons_append]
    exact not_isPrefix_of_isQuiet h (by simp [hup])

theorem named?_nameAnswer (name : String) :
    (readingOf style model).named? (nameAnswer name) = none := by
  obtain ⟨c, rest, hname, hup, -⟩ := hs.className
  have hcase := not_isPrefix_of_head (head?_caseOf style)
    (show (nameAnswer name).head? = some 'r' from rfl) (by decide)
  have hreturn : ¬ "return ".toList ++ style.className.toList ++ ['.'] <+: nameAnswer name := by
    have hanswer : nameAnswer name = "return ".toList ++ '"' :: (name.toList ++ "\";".toList) := rfl
    rw [hanswer, List.append_assoc, List.prefix_append_right_inj, hname]
    intro hp
    have hquote : c = '"' := (List.cons_prefix_cons.mp hp).1
    exact absurd (hquote ▸ hup) (by decide)
  exact named?_eq_none hs model hcase hreturn (opensLow_cases style name "").2.1

theorem named?_codeLabel (n : Int) :
    (readingOf style model).named? (codeLabel (toString n)) = none := by
  have hreturn := not_isPrefix_of_head (head?_returnOf style)
    (show (codeLabel (toString n)).head? = some 'c' from rfl) (by decide)
  exact named?_eq_none hs model
    (fun hp => not_isPrefix_codeLabel hs n ((List.prefix_append _ _).trans hp)) hreturn
    (opensLow_cases style "" (toString n)).2.2.1

theorem named?_definitionLine {constant : Constant} (hw : IsWord constant.name)
    (hi : Number.inRange constant.number) :
    (readingOf style model).named? (definitionLine style constant)
      = some (memberText style constant.name) := by
  obtain ⟨c, hhead, hup⟩ := head?_definitionLine hs constant
  have hcase := not_isPrefix_of_head (head?_caseOf style) hhead
    (by rintro rfl; exact absurd hup (by decide))
  have hreturn := not_isPrefix_of_head (head?_returnOf style) hhead
    (by rintro rfl; exact absurd hup (by decide))
  rw [Reading.named?, className_readingOf, between?_eq_none hcase, between?_eq_none hreturn,
    definition?_definitionLine style model hw hi]
  rfl

theorem quoted?_codeAnswer (name : String) :
    Reading.quoted? (codeAnswer style name) = none := by
  obtain ⟨c, rest, hname, hup, -⟩ := hs.className
  have hquote : ¬ "return \"".toList <+: codeAnswer style name := by
    have hfront : "return \"".toList = "return ".toList ++ ['"'] := by simp
    unfold codeAnswer
    rw [hfront, List.prefix_append_right_inj, hname]
    intro hp
    have hc : '"' = c := (List.cons_prefix_cons.mp hp).1
    rw [← hc] at hup
    exact absurd hup (by decide)
  exact between?_eq_none hquote _

theorem quoted?_definitionLine (constant : Constant) :
    Reading.quoted? (definitionLine style constant) = none := by
  obtain ⟨c, hhead, hup⟩ := head?_definitionLine hs constant
  have hne : 'r' ≠ c := by
    rintro rfl
    exact absurd hup (by decide)
  exact between?_eq_none (not_isPrefix_of_head head?_quoteOf hhead hne) _

end

section

variable {style : ClassStyle} {model : ClassModel} (hs : style.IsPlain) (hm : model.IsPlain)

include hs hm

-- Members are named in the labels of names, in the answers of codes and in the definitions.
theorem members_classPage :
    (readingOf style model).members
      = model.toName.names.pairs.map (fun pair => memberText style pair.2)
        ++ (model.fromCode.names.pairs.map (fun pair => memberText style pair.2)
          ++ model.constants.map fun constant => memberText style constant.name) := by
  have hnamed (pair : String × String) : [nameLabel style pair.2, nameAnswer pair.2].filterMap
      (readingOf style model).named? = [memberText style pair.2] := by
    rw [List.filterMap_cons_some (named?_nameLabel style model pair.2),
      List.filterMap_cons_none (named?_nameAnswer hs model pair.2), List.filterMap_nil]
  have hcoded : ∀ pair ∈ model.fromCode.names.pairs,
      [codeLabel pair.1, codeAnswer style pair.2].filterMap (readingOf style model).named?
        = [memberText style pair.2] := by
    intro pair hp
    obtain ⟨n, hn⟩ := hm.numeral pair hp
    rw [hn, List.filterMap_cons_none (named?_codeLabel hs model n),
      List.filterMap_cons_some (named?_codeAnswer style model pair.2), List.filterMap_nil]
  have hdefined : ∀ constant ∈ model.constants, [definitionLine style constant].filterMap
      (readingOf style model).named? = [memberText style constant.name] := fun constant hc =>
    List.filterMap_cons_some
      (named?_definitionLine hs model (hm.constant constant hc) (hm.inRange constant hc))
  unfold Reading.members
  rw [filterMap_classPage hs hm fun line => named?_of_isQuiet hs model,
    List.flatMap_congr fun pair _ => hnamed pair, List.flatMap_congr hcoded,
    List.flatMap_congr hdefined]
  simp only [List.map_eq_flatMap]

-- The texts in quotes are the names.
theorem quoted_classPage :
    (readingOf style model).quoted = model.toName.names.pairs.map fun pair => pair.2.toList := by
  have hnamed (pair : String × String) : [nameLabel style pair.2, nameAnswer pair.2].filterMap
      Reading.quoted? = [pair.2.toList] := by
    rw [List.filterMap_cons_none (quoted?_label rfl),
      List.filterMap_cons_some (quoted?_nameAnswer pair.2), List.filterMap_nil]
  have hcoded (pair : String × String) : [codeLabel pair.1, codeAnswer style pair.2].filterMap
      Reading.quoted? = [] := by
    rw [List.filterMap_cons_none (quoted?_label rfl),
      List.filterMap_cons_none (quoted?_codeAnswer hs pair.2), List.filterMap_nil]
  have hdefined (constant : Constant) : [definitionLine style constant].filterMap
      Reading.quoted? = [] :=
    List.filterMap_cons_none (quoted?_definitionLine hs constant)
  unfold Reading.quoted
  rw [filterMap_classPage hs hm fun line => quoted?_of_isQuiet]
  simp only [hnamed, hcoded, hdefined, List.map_eq_flatMap]
  rw [List.flatMap_eq_nil_iff.mpr fun _ _ => rfl, List.flatMap_eq_nil_iff.mpr fun _ _ => rfl,
    List.append_nil, List.append_nil]

end

end Codebook.Script
