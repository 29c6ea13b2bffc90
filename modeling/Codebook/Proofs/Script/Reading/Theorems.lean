import Codebook.Proofs.Dictionary
import Codebook.Proofs.Script.Reading.Lines

namespace Codebook.Script

open Codebook.Text

-- What a reader makes of the lines of a class.

-- The reading of a class that was written
def readingOf (style : ClassStyle) (model : ClassModel) : Reading :=
  Reading.ofText style.className (classPage style model).text

@[simp] theorem className_readingOf (style : ClassStyle) (model : ClassModel) :
    (readingOf style model).className = style.className.toList := rfl

theorem dropPrefix?_eq_some {front line rest : List Char} :
    line.dropPrefix? front = some rest ↔ line = front ++ rest := by
  simp [List.dropPrefix?_eq_some_iff]

theorem between?_eq_some {front back line inner : List Char} :
    between? front back line = some inner ↔ line = front ++ (inner ++ back) := by
  simp [between?, Option.bind_eq_some_iff, dropPrefix?_eq_some, List.dropSuffix?_eq_some_iff]

-- A line that belongs to no label is passed over.
theorem below?_append {label : List Char → Bool} {front : List (List Char)}
    (h : ∀ line ∈ front, label line = false) (rest : List (List Char)) :
    below? label (front ++ rest) = below? label rest := by
  induction front with
  | nil => rfl
  | cons line front ih =>
      have hline := h line (by simp)
      have hfront := ih fun other hm => h other (List.mem_cons_of_mem _ hm)
      rw [← hfront, List.cons_append]
      cases front ++ rest <;> simp [below?, hline]

-- Among cases of two lines the first one with the label is found.
theorem below?_cases {α : Type} {label : List Char → Bool} (head body : α → List Char)
    {pairs : List α} (h : ∀ pair ∈ pairs, label (body pair) = false)
    (rest : List (List Char)) :
    below? label (pairs.flatMap (fun pair => [head pair, body pair]) ++ rest)
      = ((pairs.find? fun pair => label (head pair)).map body).or (below? label rest) := by
  induction pairs with
  | nil => simp
  | cons pair pairs ih =>
      have hbody := h pair (by simp)
      have hpairs := ih fun other hm => h other (List.mem_cons_of_mem _ hm)
      rw [List.flatMap_cons, List.append_assoc, List.find?_cons]
      by_cases hp : label (head pair)
      · simp [below?, hp]
      · have hfront : ∀ line ∈ [head pair, body pair], label line = false := by
          simp [hp, hbody]
        rw [below?_append hfront, hpairs]
        simp [hp]

-- A line that does not begin as the name of a class does
def OpensLow (line : List Char) : Prop := ∀ c ∈ line.head?, c.isUpper → c = 'O'

theorem opensLow_of_isQuiet {line : List Char} (h : isQuiet line) : OpensLow line := by
  intro c hc hup
  cases line with
  | nil => simp at hc
  | cons d rest =>
      obtain rfl : d = c := by simpa using hc
      simp only [isQuiet, hup, Bool.not_true, Bool.false_or, Bool.and_eq_true, beq_iff_eq] at h
      exact h.1.1

theorem opensLow_append {front : List Char} {c : Char} (hc : front.head? = some c)
    (hup : c.isUpper = false) (rest : List Char) : OpensLow (front ++ rest) := by
  intro d hd
  rw [List.head?_append, hc, Option.some_or, Option.mem_some_iff] at hd
  simp [← hd, hup]

-- A line that a case begins with
def IsLabel (line : List Char) : Prop := "case ".toList <+: line

theorem not_isLabel_of_isQuiet {line : List Char} (h : isQuiet line) : ¬ IsLabel line := by
  rintro ⟨rest, rfl⟩
  simp [isQuiet] at h

theorem not_isLabel_of_head {line : List Char} (h : line.head? ≠ some 'c') : ¬ IsLabel line := by
  rintro ⟨rest, rfl⟩
  simp at h

section

variable {style : ClassStyle} (hs : style.IsPlain)

include hs

theorem ne_className_append {line : List Char} (h : OpensLow line) (rest : List Char) :
    line ≠ style.className.toList ++ rest := by
  obtain ⟨c, tail, hname, hup, hne⟩ := hs.className
  rintro rfl
  exact hne (h c (by simp [hname]) hup)

theorem definition?_eq_none {model : ClassModel} {line : List Char} (h : OpensLow line) :
    (readingOf style model).definition? line = none := by
  have hnone : line.dropPrefix? (style.className.toList ++ ['.']) = none := by
    by_contra hne
    obtain ⟨rest, hrest⟩ := Option.ne_none_iff_exists'.mp hne
    rw [dropPrefix?_eq_some, List.append_assoc] at hrest
    exact ne_className_append hs h _ hrest
  simp [Reading.definition?, hnone]

end

theorem takeWhile_upToSpace {front : List Char} (h : ∀ c ∈ front, c ≠ ' ') (rest : List Char) :
    (front ++ ' ' :: rest).takeWhile (· != ' ') = front := by
  rw [List.takeWhile_append_of_pos (by simpa using h)]
  simp

theorem dropWhile_upToSpace {front : List Char} (h : ∀ c ∈ front, c ≠ ' ') (rest : List Char) :
    (front ++ ' ' :: rest).dropWhile (· != ' ') = ' ' :: rest := by
  rw [List.dropWhile_append_of_pos (by simpa using h)]
  simp

theorem definition?_definitionLine (style : ClassStyle) (model : ClassModel)
    {constant : Constant} (hw : IsWord constant.name) (hi : Number.inRange constant.number) :
    (readingOf style model).definition? (definitionLine style constant)
      = some (memberText style constant.name, constant.number) := by
  have hmember : ∀ c ∈ memberText style constant.name, c ≠ ' ' :=
    fun c hc => (isWord_memberText style hw c hc).1
  -- the first space behind the member begins what is between the member and the code
  obtain ⟨rest, hrest⟩ : ∃ rest, " = new ".toList ++ style.className.toList ++ ['(']
      ++ ((toString constant.number).toList ++ ");".toList) = ' ' :: rest :=
    List.head?_eq_some_iff.mp (by simp)
  have hline : definitionLine style constant
      = style.className.toList ++ ['.'] ++ (memberText style constant.name ++ ' ' :: rest) := by
    unfold definitionLine
    rw [hrest]
  have hcode : between? (" = new ".toList ++ style.className.toList ++ ['(']) ");".toList
      (' ' :: rest) = some (toString constant.number).toList := between?_eq_some.mpr hrest.symm
  have hnumber := Number.signed_toString hi
  unfold Reading.definition?
  rw [className_readingOf, hline, dropPrefix?_eq_some.mpr rfl, Option.bind_eq_bind,
    Option.bind_some, takeWhile_upToSpace hmember, dropWhile_upToSpace hmember, hcode,
    Option.bind_eq_bind, Option.bind_some, hnumber]
  rfl

-- What stands between the ends of the lines that name a member or a name

theorem between?_eq_none {front line : List Char} (h : ¬ front <+: line) (back : List Char) :
    between? front back line = none := by
  by_contra hne
  obtain ⟨inner, hinner⟩ := Option.ne_none_iff_exists'.mp hne
  rw [between?_eq_some] at hinner
  exact h ⟨inner ++ back, hinner.symm⟩

theorem between?_nameLabel (style : ClassStyle) (name : String) :
    between? ("case ".toList ++ style.className.toList ++ ['.']) [':'] (nameLabel style name)
      = some (memberText style name) := by
  unfold nameLabel
  rw [between?_eq_some]
  simp only [List.append_assoc]

theorem between?_codeAnswer (style : ClassStyle) (name : String) :
    between? ("return ".toList ++ style.className.toList ++ ['.']) [';'] (codeAnswer style name)
      = some (memberText style name) := by
  unfold codeAnswer
  rw [between?_eq_some]
  simp only [List.append_assoc]

theorem between?_nameAnswer (name : String) :
    between? "return \"".toList "\";".toList (nameAnswer name) = some name.toList :=
  between?_eq_some.mpr rfl

section

variable (style : ClassStyle) (model : ClassModel)

theorem labelled_nameLabel (name : String) :
    (readingOf style model).labelled (nameLabel style name)
      = (readingOf style model).instances.get? (memberText style name) := by
  unfold Reading.labelled
  rw [className_readingOf, between?_nameLabel, Option.bind_eq_bind, Option.bind_some]

theorem returned_codeAnswer (name : String) :
    (readingOf style model).returned (codeAnswer style name)
      = (readingOf style model).instances.get? (memberText style name) := by
  unfold Reading.returned
  rw [className_readingOf, between?_codeAnswer, Option.bind_eq_bind, Option.bind_some]

theorem labelled_eq_none {line : List Char}
    (h : ¬ "case ".toList ++ style.className.toList <+: line) :
    (readingOf style model).labelled line = none := by
  have hnone := between?_eq_none
    (fun hp => h ((List.prefix_append _ ['.']).trans hp) :
      ¬ "case ".toList ++ style.className.toList ++ ['.'] <+: line) [':']
  unfold Reading.labelled
  rw [className_readingOf, hnone, Option.bind_eq_bind, Option.bind_none]

end

-- No numeral begins as the name of a class does.
theorem not_isPrefix_codeLabel {style : ClassStyle} (hs : style.IsPlain) (n : Int) :
    ¬ "case ".toList ++ style.className.toList <+: codeLabel (toString n) := by
  obtain ⟨c, rest, hname, hup, -⟩ := hs.className
  intro hp
  have hp : style.className.toList <+: (toString n).toList ++ [':'] :=
    (List.prefix_append_right_inj _).mp hp
  have hmem : c ∈ (toString n).toList ∨ c = ':' := by
    cases hn : (toString n).toList with
    | nil => exact absurd hn (Number.toString_ne_nil n)
    | cons d digits =>
        rw [hname, hn] at hp
        simp [(List.cons_prefix_cons.mp hp).1]
  rcases hmem with hmem | rfl
  · rcases Number.mem_toString hmem with hd | rfl
    · unfold Char.isUpper at hup
      simp only [Char.isDigit, Bool.and_eq_true, decide_eq_true_eq] at hd hup
      exact absurd (UInt32.le_trans hup.1 hd.2) (by decide)
    · exact absurd hup (by decide)
  · exact absurd hup (by decide)

theorem nameLabel_ne_codeLabel {style : ClassStyle} (hs : style.IsPlain) (name : String)
    (n : Int) : nameLabel style name ≠ codeLabel (toString n) := by
  intro h
  apply not_isPrefix_codeLabel hs n
  rw [← h]
  unfold nameLabel
  rw [List.append_assoc style.className.toList, ← List.append_assoc]
  exact List.prefix_append _ _

-- What the case of a name or of a code reads as, whatever the collections are
theorem opensLow_cases (style : ClassStyle) (name code : String) :
    OpensLow (nameLabel style name) ∧ OpensLow (nameAnswer name) ∧
      OpensLow (codeLabel code) ∧ OpensLow (codeAnswer style name) := by
  have hcase : "case ".toList.head? = some 'c' := rfl
  have hanswer : "return \"".toList.head? = some 'r' := rfl
  have hreturn : "return ".toList.head? = some 'r' := rfl
  exact ⟨opensLow_append hcase rfl _, opensLow_append hanswer rfl _, opensLow_append hcase rfl _,
    opensLow_append hreturn rfl _⟩

theorem quiet_of_arePlain {rows : List Row} (h : ArePlain rows) :
    ∀ line ∈ rows.map Row.bare, isQuiet line := by
  intro line hline
  obtain ⟨row, hrow, rfl⟩ := List.mem_map.mp hline
  exact (h row hrow).quiet

section

variable {style : ClassStyle} {model : ClassModel} (hs : style.IsPlain) (hm : model.IsPlain)

include hs hm

-- What is taken from single lines, and from none that is quiet, comes from the cases and the
-- definitions.
theorem filterMap_classPage {α : Type} {read : List Char → Option α}
    (h : ∀ line, isQuiet line → read line = none) :
    (readingOf style model).lines.filterMap read
      = model.toName.names.pairs.flatMap
          (fun pair => [nameLabel style pair.2, nameAnswer pair.2].filterMap read)
        ++ (model.fromCode.names.pairs.flatMap
            (fun pair => [codeLabel pair.1, codeAnswer style pair.2].filterMap read)
          ++ model.constants.flatMap fun constant =>
            [definitionLine style constant].filterMap read) := by
  have hnone {rows : List Row} (hr : ArePlain rows) : (rows.map Row.bare).filterMap read = [] :=
    List.filterMap_eq_nil_iff.mpr fun line hl => h line (quiet_of_arePlain hr line hl)
  have hconstants : model.constants.flatMap (fun constant =>
      ((blank :: docRows constant.doc).map Row.bare).filterMap read
        ++ [definitionLine style constant].filterMap read)
      = model.constants.flatMap fun constant => [definitionLine style constant].filterMap read :=
    List.flatMap_congr fun constant hc => by rw [hnone (arePlain_docs hm hc), List.nil_append]
  have hlast : [([] : List Char)].filterMap read = [] := by simp [h [] rfl]
  rw [readingOf, lines_classPage hs hm]
  simp only [List.filterMap_append, List.filterMap_flatMap]
  rw [hnone (arePlain_openingRows hs), hnone (arePlain_betweenRows hs),
    hnone (arePlain_closingRows hs), hconstants, hlast]
  simp only [List.nil_append, List.append_nil]

-- The definitions are the constants, in their order.
theorem definitions_classPage :
    (readingOf style model).definitions
      = model.constants.map fun constant => (memberText style constant.name, constant.number) := by
  have hquiet (line : List Char) (hl : isQuiet line) :
      (readingOf style model).definition? line = none :=
    definition?_eq_none hs (opensLow_of_isQuiet hl)
  have hnamed : model.toName.names.pairs.flatMap (fun pair =>
      [nameLabel style pair.2, nameAnswer pair.2].filterMap (readingOf style model).definition?)
      = [] := by
    refine List.flatMap_eq_nil_iff.mpr fun pair _ => ?_
    obtain ⟨hlabel, hanswer, -⟩ := opensLow_cases style pair.2 pair.1
    simp [definition?_eq_none hs hlabel, definition?_eq_none hs hanswer]
  have hcoded : model.fromCode.names.pairs.flatMap (fun pair =>
      [codeLabel pair.1, codeAnswer style pair.2].filterMap (readingOf style model).definition?)
      = [] := by
    refine List.flatMap_eq_nil_iff.mpr fun pair _ => ?_
    obtain ⟨-, -, hlabel, hanswer⟩ := opensLow_cases style pair.2 pair.1
    simp [definition?_eq_none hs hlabel, definition?_eq_none hs hanswer]
  have hconstants : model.constants.flatMap (fun constant =>
      [definitionLine style constant].filterMap (readingOf style model).definition?)
      = model.constants.flatMap fun constant =>
        [(memberText style constant.name, constant.number)] :=
    List.flatMap_congr fun constant hc => List.filterMap_cons_some
      (definition?_definitionLine style model (hm.constant constant hc) (hm.inRange constant hc))
  unfold Reading.definitions
  rw [filterMap_classPage hs hm hquiet, hnamed, hcoded, hconstants, List.map_eq_flatMap]
  rfl

theorem instances_classPage :
    (readingOf style model).instances = Dictionary.ofList (model.constants.zipIdx.map
      fun (constant, order) => (memberText style constant.name, ⟨order, constant.number⟩)) := by
  unfold Reading.instances
  rw [definitions_classPage hs hm, List.zipIdx_map, List.map_map]
  rfl

-- With distinct members every constant has the instance of its own definition.
theorem get?_instances
    (hn : (model.constants.map fun constant => memberText style constant.name).Nodup)
    {order : Nat} {constant : Constant} (hc : model.constants[order]? = some constant) :
    (readingOf style model).instances.get? (memberText style constant.name)
      = some ⟨order, constant.number⟩ := by
  have hkeys : ((model.constants.zipIdx.map fun (constant, order) =>
      (memberText style constant.name, (⟨order, constant.number⟩ : Instance))).map
        Prod.fst).Nodup := by
    rw [List.map_map]
    have hfst : model.constants = model.constants.zipIdx.map Prod.fst := by simp
    rw [hfst, List.map_map] at hn
    exact hn
  rw [instances_classPage hs hm, Dictionary.get?, Dictionary.pairs_ofList_of_nodup hkeys,
    Dictionary.lookup_eq_some_iff hkeys]
  exact List.mem_map.mpr ⟨(constant, order), List.mem_zipIdx_iff_getElem?.mpr hc, rfl⟩

theorem not_isLabel_definitions :
    ∀ line ∈ model.constants.flatMap (fun constant =>
      (blank :: docRows constant.doc).map Row.bare ++ [definitionLine style constant]) ++ [[]],
      ¬ IsLabel line := by
  obtain ⟨c, rest, hname, hup, -⟩ := hs.className
  have hhead (constant : Constant) : (definitionLine style constant).head? ≠ some 'c' := by
    unfold definitionLine
    simp only [hname, List.cons_append, List.head?_cons, ne_eq, Option.some.injEq]
    rintro rfl
    exact absurd hup (by decide)
  intro line hl
  rcases List.mem_append.mp hl with hl | hl
  · obtain ⟨constant, hc, hl⟩ := List.mem_flatMap.mp hl
    rcases List.mem_append.mp hl with hl | hl
    · exact not_isLabel_of_isQuiet (quiet_of_arePlain (arePlain_docs hm hc) line hl)
    · exact not_isLabel_of_head (List.mem_singleton.mp hl ▸ hhead constant)
  · exact not_isLabel_of_isQuiet (List.mem_singleton.mp hl ▸ rfl)

-- The labels are those of the names and, behind them, those of the codes.
theorem below?_classPage {label : List Char → Bool} (h : ∀ line, label line → IsLabel line) :
    below? label (readingOf style model).lines
      = ((model.toName.names.pairs.find? fun pair => label (nameLabel style pair.2)).map
          fun pair => nameAnswer pair.2).or
        ((model.fromCode.names.pairs.find? fun pair => label (codeLabel pair.1)).map
          fun pair => codeAnswer style pair.2) := by
  have hfalse {line : List Char} (hl : ¬ IsLabel line) : label line = false :=
    Bool.eq_false_iff.mpr fun ht => hl (h line ht)
  have hquiet {rows : List Row} (hp : ArePlain rows) :
      ∀ line ∈ rows.map Row.bare, label line = false :=
    fun line hl => hfalse (not_isLabel_of_isQuiet (quiet_of_arePlain hp line hl))
  have hnamed (name : String) : label (nameAnswer name) = false :=
    hfalse (not_isLabel_of_head (by unfold nameAnswer; simp))
  have hcoded (name : String) : label (codeAnswer style name) = false :=
    hfalse (not_isLabel_of_head (by unfold codeAnswer; simp))
  have hdefined : below? label (model.constants.flatMap (fun constant =>
      (blank :: docRows constant.doc).map Row.bare ++ [definitionLine style constant])
        ++ [[]] ++ []) = none :=
    below?_append (fun line hl => hfalse (not_isLabel_definitions hs hm line hl)) []
  rw [List.append_nil] at hdefined
  rw [readingOf, lines_classPage hs hm, below?_append (hquiet (arePlain_openingRows hs)),
    below?_cases _ _ fun pair _ => hnamed pair.2,
    below?_append (hquiet (arePlain_betweenRows hs)),
    below?_cases _ _ fun pair _ => hcoded pair.2,
    below?_append (hquiet (arePlain_closingRows hs)), hdefined, Option.or_none]

-- `_fromCode` returns the member of the name that the code has in the table.
theorem fromCode_classPage (n : Int) :
    (readingOf style model).fromCode n
      = match model.fromCode.names.get? (toString n) with
        | some name => .member ((readingOf style model).instances.get? (memberText style name))
        | none => .default := by
  have hlabel : (fun line => line == "case ".toList ++ (toString n).toList ++ [':'])
      = fun line => line == codeLabel (toString n) := by
    unfold codeLabel
    simp only [List.append_assoc]
  have hcase (line : List Char) (h : line == codeLabel (toString n)) : IsLabel line := by
    rw [beq_iff_eq.mp h]
    exact List.prefix_append _ _
  have hnamed : (model.toName.names.pairs.find? fun pair =>
      nameLabel style pair.2 == codeLabel (toString n)) = none := by
    refine List.find?_eq_none.mpr fun pair _ => ?_
    rw [beq_iff_eq]
    exact nameLabel_ne_codeLabel hs pair.2 n
  have hcoded : (model.fromCode.names.pairs.find? fun pair =>
      codeLabel pair.1 == codeLabel (toString n))
      = model.fromCode.names.pairs.find? fun pair => pair.1 == toString n := by
    congr 1
    funext pair
    rw [Bool.eq_iff_iff, beq_iff_eq, beq_iff_eq]
    unfold codeLabel
    rw [List.append_right_inj, List.append_left_inj, String.toList_inj]
  have hget := Dictionary.find?_key (toString n) model.fromCode.names.pairs
  unfold Reading.fromCode
  rw [hlabel, below?_classPage hs hm hcase, hnamed, hcoded, Option.map_none, Option.none_or,
    Dictionary.get?, ← hget]
  cases model.fromCode.names.pairs.find? fun pair => pair.1 == toString n with
  | none => rfl
  | some pair =>
      have hreturned := returned_codeAnswer style model pair.2
      simp only [Option.map_some, hreturned]

-- `toString` gives the first name of the table whose member is the instance.
theorem toName_classPage (subject : Instance) :
    (readingOf style model).toName subject
      = (model.toName.names.pairs.find? fun pair =>
          (readingOf style model).instances.get? (memberText style pair.2)
            == some subject).map Prod.snd := by
  have hcase (line : List Char)
      (h : (readingOf style model).labelled line == some subject) : IsLabel line := by
    by_contra hn
    have hnone : (readingOf style model).labelled line = none :=
      labelled_eq_none style model
        fun hp => hn ((List.prefix_append _ _).trans hp)
    simp [hnone] at h
  have hcoded : (model.fromCode.names.pairs.find? fun pair =>
      (readingOf style model).labelled (codeLabel pair.1) == some subject) = none := by
    refine List.find?_eq_none.mpr fun pair hp => ?_
    obtain ⟨n, hn⟩ := hm.numeral pair hp
    rw [labelled_eq_none style model (hn ▸ not_isPrefix_codeLabel hs n)]
    simp
  unfold Reading.toName
  rw [below?_classPage hs hm hcase, hcoded, Option.map_none, Option.or_none]
  simp only [labelled_nameLabel style model]
  cases model.toName.names.pairs.find? fun pair =>
      (readingOf style model).instances.get? (memberText style pair.2) == some subject with
  | none => rfl
  | some pair =>
      rw [Option.map_some, Option.map_some, Option.bind_eq_bind, Option.bind_some,
        between?_nameAnswer]
      exact congrArg some String.ofList_toList

end

end Codebook.Script
