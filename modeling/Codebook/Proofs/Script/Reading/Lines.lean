import Codebook.Proofs.Number.Decimal
import Codebook.Proofs.Script.MemberName
import Codebook.Proofs.Script.Reading
import Codebook.Proofs.Script.Reading.Rows

namespace Codebook.Script

open Codebook.Text

-- The lines of a class, and which of them are labels, answers and definitions.

-- The member of a name as a reader meets it
def memberText (style : ClassStyle) (name : String) : List Char :=
  (memberName style.names name).toList

def nameLabel (style : ClassStyle) (name : String) : List Char :=
  "case ".toList ++ (style.className.toList ++ ['.'] ++ (memberText style name ++ [':']))

def nameAnswer (name : String) : List Char := "return \"".toList ++ (name.toList ++ "\";".toList)

def codeLabel (code : String) : List Char := "case ".toList ++ (code.toList ++ [':'])

def codeAnswer (style : ClassStyle) (name : String) : List Char :=
  "return ".toList ++ (style.className.toList ++ ['.'] ++ (memberText style name ++ [';']))

def definitionLine (style : ClassStyle) (constant : Constant) : List Char :=
  style.className.toList ++ ['.'] ++ (memberText style constant.name
    ++ (" = new ".toList ++ style.className.toList ++ ['(']
      ++ ((toString constant.number).toList ++ ");".toList)))

theorem toList_memberOf (style : ClassStyle) (name : String) :
    (memberOf style name).toList = style.className.toList ++ ['.'] ++ memberText style name := by
  change (style.className ++ "." ++ memberName style.names name).toList = _
  rw [String.toList_append, String.toList_append]
  rfl

theorem toList_nameCase (style : ClassStyle) (lines : Dictionary String Nat)
    (key name : String) :
    (nameCase style lines key name).map (fun row => row.text.toList)
      = [nameLabel style name, nameAnswer name] := by
  have hlabel : (s!"case {memberOf style name}:").toList = nameLabel style name := by
    change ("case " ++ memberOf style name ++ ":").toList = _
    rw [String.toList_append, String.toList_append, toList_memberOf, List.append_assoc,
      List.append_assoc]
    rfl
  have hanswer : (s!"return \"{name}\";").toList = nameAnswer name := by
    change ("return \"" ++ name ++ "\";").toList = _
    rw [String.toList_append, String.toList_append, List.append_assoc]
    rfl
  simp only [nameCase, List.map_cons, List.map_nil, hlabel, hanswer]

theorem toList_codeCase (style : ClassStyle) (lines : Dictionary String Nat)
    (code name : String) :
    (codeCase style lines code name).map (fun row => row.text.toList)
      = [codeLabel code, codeAnswer style name] := by
  have hlabel : (s!"case {code}:").toList = codeLabel code := by
    change ("case " ++ code ++ ":").toList = _
    rw [String.toList_append, String.toList_append, List.append_assoc]
    rfl
  have hanswer : (s!"return {memberOf style name};").toList = codeAnswer style name := by
    change ("return " ++ memberOf style name ++ ";").toList = _
    rw [String.toList_append, String.toList_append, toList_memberOf, List.append_assoc,
      List.append_assoc]
    rfl
  simp only [codeCase, List.map_cons, List.map_nil, hlabel, hanswer]

-- What is so of the two lines of a case is so of its rows.

theorem forall_text_nameCase {P : List Char → Prop} {style : ClassStyle} {name : String}
    (hl : P (nameLabel style name)) (ha : P (nameAnswer name)) (lines : Dictionary String Nat)
    (key : String) : ∀ row ∈ nameCase style lines key name, P row.text.toList := by
  have htexts : ∀ text ∈ (nameCase style lines key name).map fun row => row.text.toList,
      P text := by
    rw [toList_nameCase]
    exact List.forall_mem_cons.mpr ⟨hl, List.forall_mem_singleton.mpr ha⟩
  exact fun row hm => htexts _ (List.mem_map_of_mem hm)

theorem forall_text_codeCase {P : List Char → Prop} {style : ClassStyle} {code name : String}
    (hl : P (codeLabel code)) (ha : P (codeAnswer style name)) (lines : Dictionary String Nat) :
    ∀ row ∈ codeCase style lines code name, P row.text.toList := by
  have htexts : ∀ text ∈ (codeCase style lines code name).map fun row => row.text.toList,
      P text := by
    rw [toList_codeCase]
    exact List.forall_mem_cons.mpr ⟨hl, List.forall_mem_singleton.mpr ha⟩
  exact fun row hm => htexts _ (List.mem_map_of_mem hm)

theorem toList_definitionRow (style : ClassStyle) (constant : Constant) :
    (definitionRow style constant).text.toList = definitionLine style constant := by
  change (memberOf style constant.name ++ " = new " ++ style.className ++ "("
    ++ toString constant.number ++ ");").toList = _
  simp only [String.toList_append, toList_memberOf, definitionLine, List.append_assoc]
  rfl

-- Nothing in front of a line is dropped when it begins with another character than a space.
theorem dropWhile_append {front : List Char} (hc : front.head?.any (· != ' '))
    (rest : List Char) : (front ++ rest).dropWhile (· == ' ') = front ++ rest := by
  cases front with
  | nil => simp at hc
  | cons c front => simp_all

theorem map_bare_nameCase (style : ClassStyle) (lines : Dictionary String Nat)
    (key name : String) :
    (nameCase style lines key name).map Row.bare = [nameLabel style name, nameAnswer name] := by
  have hlabel : (nameLabel style name).dropWhile (· == ' ') = nameLabel style name :=
    dropWhile_append (by decide) _
  have hanswer : (nameAnswer name).dropWhile (· == ' ') = nameAnswer name :=
    dropWhile_append (by decide) _
  have hbare : (nameCase style lines key name).map Row.bare
      = ((nameCase style lines key name).map fun row => row.text.toList).map
        (List.dropWhile (· == ' ')) := List.map_map.symm
  rw [hbare, toList_nameCase, List.map_cons, List.map_cons, List.map_nil, hlabel, hanswer]

theorem map_bare_codeCase (style : ClassStyle) (lines : Dictionary String Nat)
    (code name : String) :
    (codeCase style lines code name).map Row.bare = [codeLabel code, codeAnswer style name] := by
  have hlabel : (codeLabel code).dropWhile (· == ' ') = codeLabel code :=
    dropWhile_append (by decide) _
  have hanswer : (codeAnswer style name).dropWhile (· == ' ') = codeAnswer style name :=
    dropWhile_append (by decide) _
  have hbare : (codeCase style lines code name).map Row.bare
      = ((codeCase style lines code name).map fun row => row.text.toList).map
        (List.dropWhile (· == ' ')) := List.map_map.symm
  rw [hbare, toList_codeCase, List.map_cons, List.map_cons, List.map_nil, hlabel, hanswer]

-- A text that stays on its line and has no gap
def IsWord (text : String) : Prop := ∀ c ∈ text.toList, c ≠ ' ' ∧ c ≠ '\n'

-- What is written from the collections of a class stays on its line.
structure ClassModel.IsPlain (model : ClassModel) : Prop where
  named : ∀ pair ∈ model.toName.names.pairs, IsWord pair.2
  coded : ∀ pair ∈ model.fromCode.names.pairs, IsWord pair.2
  numeral : ∀ pair ∈ model.fromCode.names.pairs, ∃ n : Int, pair.1 = toString n
  constant : ∀ constant ∈ model.constants, IsWord constant.name
  inRange : ∀ constant ∈ model.constants, Number.inRange constant.number
  doc : ∀ constant ∈ model.constants, ∀ line ∈ constant.doc, '\n' ∉ line.toList

theorem isWord_memberText (style : ClassStyle) {name : String} (h : IsWord name) :
    ∀ c ∈ memberText style name, c ≠ ' ' ∧ c ≠ '\n' := by
  intro c hc
  constructor
  · rintro rfl
    exact (h _ (mem_of_mem_memberName hc ⟨by decide, by decide⟩)).1 rfl
  · rintro rfl
    exact (h _ (mem_of_mem_memberName hc ⟨by decide, by decide⟩)).2 rfl

section

variable {style : ClassStyle} {model : ClassModel}

theorem ClassStyle.IsPlain.bare_definitionRow (hs : style.IsPlain) (constant : Constant) :
    (definitionRow style constant).bare = definitionLine style constant := by
  obtain ⟨c, rest, hname, hc, -⟩ := hs.className
  have hspace : c ≠ ' ' := by
    rintro rfl
    exact absurd hc (by decide)
  rw [Row.bare, toList_definitionRow, definitionLine, List.append_assoc]
  exact dropWhile_append (by simp [hname, hspace]) _

theorem no_lineFeed_nameLabel (hs : style.IsPlain) {name : String} (hw : IsWord name) :
    '\n' ∉ nameLabel style name ∧ '\n' ∉ nameAnswer name := by
  have hclass : '\n' ∉ style.className.toList := fun hn => (hs.className_oneWord _ hn).2 rfl
  have hmember : '\n' ∉ memberText style name := fun hn => (isWord_memberText style hw _ hn).2 rfl
  have hname : '\n' ∉ name.toList := fun hn => (hw _ hn).2 rfl
  unfold nameLabel nameAnswer
  simp [hclass, hmember, hname]

theorem no_lineFeed_toString (n : Int) : '\n' ∉ (toString n).toList := by
  intro hn
  rcases Number.mem_toString hn with h | h
  · exact absurd h (by decide)
  · exact absurd h (by decide)

theorem no_lineFeed_codeLabel (hs : style.IsPlain) {name : String} (hw : IsWord name) (n : Int) :
    '\n' ∉ codeLabel (toString n) ∧ '\n' ∉ codeAnswer style name := by
  have hclass : '\n' ∉ style.className.toList := fun hn => (hs.className_oneWord _ hn).2 rfl
  have hmember : '\n' ∉ memberText style name := fun hn => (isWord_memberText style hw _ hn).2 rfl
  have hcode : '\n' ∉ n.repr.toList := no_lineFeed_toString n
  unfold codeLabel codeAnswer
  simp [hclass, hmember, hcode]

theorem no_lineFeed_definitionLine (hs : style.IsPlain) {constant : Constant}
    (hw : IsWord constant.name) : '\n' ∉ definitionLine style constant := by
  have hclass : '\n' ∉ style.className.toList := fun hn => (hs.className_oneWord _ hn).2 rfl
  have hmember : '\n' ∉ memberText style constant.name :=
    fun hn => (isWord_memberText style hw _ hn).2 rfl
  have hcode : '\n' ∉ constant.number.repr.toList := no_lineFeed_toString constant.number
  unfold definitionLine
  simp [hclass, hmember, hcode]

theorem arePlain_docs (hm : model.IsPlain) {constant : Constant}
    (hc : constant ∈ model.constants) : ArePlain (blank :: docRows constant.doc) :=
  arePlain_cons.mpr ⟨⟨by decide, rfl⟩, arePlain_docRows (hm.doc constant hc)⟩

theorem no_lineFeed_flatRows (hs : style.IsPlain) (hm : model.IsPlain) :
    ∀ row ∈ flatRows style model, '\n' ∉ row.text.toList := by
  intro row hrow
  simp only [flatRows, List.mem_append, List.mem_flatMap] at hrow
  rcases hrow with ((((hrow | ⟨⟨key, name⟩, hpair, hrow⟩) | hrow) | ⟨⟨code, name⟩, hpair, hrow⟩)
    | hrow) | ⟨constant, hconstant, hrow⟩
  · exact (arePlain_openingRows hs row hrow).no_lineFeed
  · have hno := no_lineFeed_nameLabel hs (hm.named _ hpair)
    exact forall_text_nameCase (P := fun text => '\n' ∉ text) hno.1 hno.2 _ key row hrow
  · exact (arePlain_betweenRows hs row hrow).no_lineFeed
  · obtain ⟨n, rfl⟩ := hm.numeral _ hpair
    have hno := no_lineFeed_codeLabel hs (hm.coded _ hpair) n
    exact forall_text_codeCase (P := fun text => '\n' ∉ text) hno.1 hno.2 _ row hrow
  · exact (arePlain_closingRows hs row hrow).no_lineFeed
  · rcases List.mem_append.mp hrow with hrow | hrow
    · exact (arePlain_docs hm hconstant row hrow).no_lineFeed
    · rw [List.mem_singleton.mp hrow, toList_definitionRow]
      exact no_lineFeed_definitionLine hs (hm.constant _ hconstant)

theorem no_lineFeed_scriptRows (hs : style.IsPlain) (hm : model.IsPlain) :
    ∀ row ∈ scriptRows style model, '\n' ∉ row.text.toList := by
  intro row hrow
  have hflat : row.text ∈ (flatRows style model).map Row.text :=
    map_text_scriptRows style model ▸ List.mem_map_of_mem hrow
  obtain ⟨flat, hflat, he⟩ := List.mem_map.mp hflat
  exact he ▸ no_lineFeed_flatRows hs hm flat hflat

-- The lines of a class as a reader meets them
theorem lines_classPage (hs : style.IsPlain) (hm : model.IsPlain) :
    (Reading.ofText style.className (classPage style model).text).lines
      = (openingRows style).map Row.bare
        ++ (model.toName.names.pairs.flatMap
            (fun pair => [nameLabel style pair.2, nameAnswer pair.2])
          ++ ((betweenRows style).map Row.bare
            ++ (model.fromCode.names.pairs.flatMap
                (fun pair => [codeLabel pair.1, codeAnswer style pair.2])
              ++ ((closingRows style).map Row.bare
                ++ (model.constants.flatMap
                    (fun constant => (blank :: docRows constant.doc).map Row.bare
                      ++ [definitionLine style constant])
                  ++ [[]]))))) := by
  have hbare : (scriptRows style model).map Row.bare = (flatRows style model).map Row.bare := by
    have h := congrArg (List.map fun text => text.toList.dropWhile (· == ' '))
      (map_text_scriptRows style model)
    rwa [List.map_map, List.map_map] at h
  rw [classPage, lines_ofRows _ (no_lineFeed_scriptRows hs hm), hbare]
  simp only [flatRows, List.map_append, List.map_flatMap, map_bare_nameCase, map_bare_codeCase,
    constantRows, List.map_cons, List.map_nil, hs.bare_definitionRow, List.append_assoc,
    List.cons_append]

end

end Codebook.Script
