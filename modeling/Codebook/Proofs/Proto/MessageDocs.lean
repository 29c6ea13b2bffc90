import Codebook.Proofs.Dictionary
import Codebook.Proofs.Proto.Addresses
import Codebook.Proofs.Proto.Docs
import Codebook.Proofs.Proto.Named
import Codebook.Proofs.Proto.Written.Theorems
import Codebook.Proofs.Text.Split
import Codebook.Proto.Docs

namespace Codebook.Proto

-- The docs of messages by their dotted names, against the addresses of the messages.

open Codebook.Text

-- Names on the way to a message: there is one at least, and none of them has a dot in it.
structure IsPath (path : List String) : Prop where
  ne_nil : path ≠ []
  noDot : ∀ name ∈ path, '.' ∉ name.toList

theorem splitOn_dotted {path : List String} (h : IsPath path) :
    splitOn '.' (dotted path).toList = path.map String.toList := by
  obtain ⟨hne, hdots⟩ := h
  induction path with
  | nil => exact absurd rfl hne
  | cons name rest ih =>
      obtain ⟨hname, hrest⟩ := List.forall_mem_cons.mp hdots
      cases rest with
      | nil =>
          have hone : dotted [name] = name := String.intercalate_singleton
          rw [hone, splitOn_of_notMem hname]
          rfl
      | cons next more =>
          rw [dotted_cons_cons, splitOn_append_separator hname,
            ih (List.cons_ne_nil _ _) hrest]
          rfl

theorem dotted_inj {path other : List String} (hp : IsPath path) (ho : IsPath other)
    (h : dotted path = dotted other) : path = other := by
  have hparts := splitOn_dotted hp
  rw [h, splitOn_dotted ho] at hparts
  exact (List.map_inj_right fun _ _ => String.toList_inj.mp).mp hparts.symm

theorem noDot_of_identifier {name : List Char} (h : IsIdentifier name) : '.' ∉ name := by
  cases name with
  | nil => exact h.elim
  | cons c rest =>
      obtain ⟨hc, hrest⟩ := h
      have hword : ∀ d ∈ c :: rest, inWord d :=
        List.forall_mem_cons.mpr ⟨inWord_of_startsWord hc, List.all_eq_true.mp hrest⟩
      exact fun hm => absurd (hword '.' hm) (by decide)

theorem StandsAt.allNames {P : String → Prop} {messages : List Message} {address : List Nat}
    {path : List String} {message : Message} (h : StandsAt messages address path message)
    (hn : ∀ message ∈ messages, message.AllNames P) : path ≠ [] ∧ ∀ name ∈ path, P name := by
  induction h with
  | here hi =>
      obtain ⟨hname, -⟩ := hn _ (List.mem_of_getElem? hi)
      exact ⟨List.cons_ne_nil _ _, List.forall_mem_singleton.mpr hname⟩
  | inside hi _ ih =>
      obtain ⟨hname, hmessages⟩ := hn _ (List.mem_of_getElem? hi)
      exact ⟨List.cons_ne_nil _ _, List.forall_mem_cons.mpr ⟨hname, (ih hmessages).2⟩⟩

theorem AreParsed.allNames {files : List File} (hf : AreParsed files) :
    ∀ file ∈ files, file.AllNames fun name => IsIdentifier name.toList := by
  intro file hm
  obtain ⟨source, parsed, hparsed, hfile⟩ := hf file hm
  have hnames := allNames_parse hparsed
  rw [← hfile]
  exact hnames

theorem StandsAmong.isPath {files : List File} {address : List Nat} {path : List String}
    {message : Message} (h : StandsAmong files address path message) (hf : AreParsed files) :
    IsPath path := by
  obtain ⟨hi, hm⟩ := h
  obtain ⟨hne, hnames⟩ := hm.allNames (hf.allNames _ (List.mem_of_getElem? hi))
  exact ⟨hne, fun name hname => noDot_of_identifier (hnames name hname)⟩

-- A message with a doc that has lines
def IsDocumentedAt (files : List File) (address : List Nat) (path : List String)
    (doc : List String) : Prop :=
  ∃ message, StandsAmong files address path message ∧ message.doc = doc ∧ doc ≠ []

def documentedVisits (files : List File) : List Visit :=
  (visitsOf files).filter fun visit => !visit.message.doc.isEmpty

theorem mem_documentedVisits {files : List File} {visit : Visit} :
    visit ∈ documentedVisits files ↔
      IsDocumentedAt files visit.address visit.path visit.message.doc ∧
        StandsAmong files visit.address visit.path visit.message := by
  simp only [documentedVisits, List.mem_filter, mem_visitsOf, Bool.not_eq_true',
    List.isEmpty_eq_false_iff, IsDocumentedAt]
  constructor
  · rintro ⟨hstands, hdoc⟩
    exact ⟨⟨visit.message, hstands, rfl, hdoc⟩, hstands⟩
  · rintro ⟨⟨_, -, -, hdoc⟩, hstands⟩
    exact ⟨hstands, hdoc⟩

theorem IsDocumentedAt.exists_visit {files : List File} {address : List Nat}
    {path doc : List String} (h : IsDocumentedAt files address path doc) :
    ∃ message, ⟨address, path, message⟩ ∈ documentedVisits files ∧ message.doc = doc := by
  obtain ⟨message, hstands, rfl, hdoc⟩ := h
  exact ⟨message, mem_documentedVisits.mpr ⟨⟨message, hstands, rfl, hdoc⟩, hstands⟩, rfl⟩

theorem messageDocs_eq (files : List File) :
    messageDocs files = Dictionary.ofList ((documentedVisits files).map fun visit =>
      (dotted visit.path, visit.message.doc)) := by
  have hnumbered (i : Nat) : files.flatMap File.documented
      = ((numbered (fun file => visitsFrom 0 file.messages) i files).filter fun visit =>
          !visit.message.doc.isEmpty).map fun visit => (dotted visit.path, visit.message.doc) := by
    induction files generalizing i with
    | nil => rfl
    | cons file rest ih =>
        rw [List.flatMap_cons, ih (i + 1), numbered, List.filter_append, List.map_append]
        congr 1
        rw [File.documented, File.allMessages, nestedIn_eq_visits [] 0]
        simp [List.filter_map, Visit.behind, Function.comp_def]
  rw [messageDocs, hnumbered 0]
  rfl

theorem pairwise_documentedVisits (files : List File) :
    (documentedVisits files).Pairwise Visit.Before :=
  (pairwise_visitsOf files).filter _

-- A key leads to the doc of the last documented message with that dotted name.
theorem get?_messageDocs (files : List File) (key : String) (doc : List String) :
    (messageDocs files).get? key = some doc ↔
      ∃ front last behind, documentedVisits files = front ++ last :: behind ∧
        dotted last.path = key ∧ last.message.doc = doc ∧
        ∀ other ∈ behind, dotted other.path ≠ key := by
  rw [messageDocs_eq, Dictionary.get?_ofList, Dictionary.lookup_reverse_eq_some_iff]
  constructor
  · rintro ⟨front, behind, hsplit, hbehind⟩
    obtain ⟨before, rest, hvisits, rfl, hrest⟩ := List.map_eq_append_iff.mp hsplit
    obtain ⟨last, after, rfl, hlast, rfl⟩ := List.map_eq_cons_iff.mp hrest
    obtain ⟨hkey, hdoc⟩ := Prod.mk.inj hlast
    refine ⟨before, last, after, hvisits, hkey, hdoc, fun other ho he => hbehind ?_⟩
    rw [List.map_map]
    exact List.mem_map.mpr ⟨other, ho, he⟩
  · rintro ⟨front, last, behind, hvisits, rfl, rfl, hbehind⟩
    refine ⟨_, _, by rw [hvisits, List.map_append, List.map_cons], fun hm => ?_⟩
    rw [List.map_map] at hm
    obtain ⟨other, ho, he⟩ := List.mem_map.mp hm
    exact hbehind other ho he

-- The paths of documented messages in the order of the first documented message with each
def documentedPaths (files : List File) : List (List String) :=
  ((documentedVisits files).map Visit.path).eraseDups

theorem mem_documentedPaths {files : List File} {path : List String} :
    path ∈ documentedPaths files ↔ ∃ address doc, IsDocumentedAt files address path doc := by
  rw [documentedPaths, List.mem_eraseDups, List.mem_map]
  constructor
  · rintro ⟨visit, hv, rfl⟩
    exact ⟨visit.address, visit.message.doc, (mem_documentedVisits.mp hv).1⟩
  · rintro ⟨address, doc, h⟩
    obtain ⟨message, hm, -⟩ := h.exists_visit
    exact ⟨_, hm, rfl⟩

theorem pairwise_documentedPaths (files : List File) :
    (documentedPaths files).Pairwise fun path other =>
      ∃ first doc, IsDocumentedAt files first path doc ∧
        ∀ later doc, IsDocumentedAt files later other doc → first < later := by
  refine (pairwise_eraseDups_map (pairwise_documentedVisits files) Visit.path).imp ?_
  rintro path other ⟨visit, hv, hpath, hbefore⟩
  refine ⟨visit.address, visit.message.doc, hpath ▸ (mem_documentedVisits.mp hv).1, ?_⟩
  intro later doc hlater
  obtain ⟨message, hm, -⟩ := hlater.exists_visit
  exact hbefore _ hm rfl

section

variable {files : List File} (hf : AreParsed files)

include hf

theorem keys_messageDocs : (messageDocs files).keys = (documentedPaths files).map dotted := by
  have hinj : ∀ path ∈ (documentedVisits files).map Visit.path,
      ∀ other ∈ (documentedVisits files).map Visit.path,
        dotted path = dotted other → path = other := by
    intro path hp other ho
    obtain ⟨visit, hv, rfl⟩ := List.mem_map.mp hp
    obtain ⟨another, ha, rfl⟩ := List.mem_map.mp ho
    exact dotted_inj ((mem_documentedVisits.mp hv).2.isPath hf)
      ((mem_documentedVisits.mp ha).2.isPath hf)
  rw [messageDocs_eq, Dictionary.keys_ofList, documentedPaths, ← eraseDups_map hinj, List.map_map,
    List.map_map]
  rfl

theorem get?_dotted {path : List String} (hp : IsPath path) (doc : List String) :
    (messageDocs files).get? (dotted path) = some doc ↔
      ∃ last, IsDocumentedAt files last path doc ∧
        ∀ other doc, IsDocumentedAt files other path doc → other ≤ last := by
  have hpath {visit : Visit} (hv : visit ∈ documentedVisits files)
      (he : dotted visit.path = dotted path) : visit.path = path :=
    dotted_inj ((mem_documentedVisits.mp hv).2.isPath hf) hp he
  have hbefore := pairwise_documentedVisits files
  rw [get?_messageDocs]
  constructor
  · rintro ⟨front, last, behind, hvisits, hkey, rfl, hbehind⟩
    have hlast : last ∈ documentedVisits files := by simp [hvisits]
    obtain rfl := hpath hlast hkey
    refine ⟨last.address, (mem_documentedVisits.mp hlast).1, fun other doc hother => ?_⟩
    obtain ⟨message, hm, -⟩ := hother.exists_visit
    rw [hvisits] at hm hbefore
    obtain ⟨-, hrest, hfront⟩ := List.pairwise_append.mp hbefore
    rcases List.mem_append.mp hm with hm | hm
    · exact le_of_lt (hfront _ hm last List.mem_cons_self)
    · rcases List.mem_cons.mp hm with hm | hm
      · exact hm ▸ le_refl last.address
      · exact absurd rfl (hbehind ⟨other, last.path, message⟩ hm)
  · rintro ⟨address, hdocumented, hlast⟩
    obtain ⟨message, hm, hdoc⟩ := hdocumented.exists_visit
    obtain ⟨front, behind, hvisits⟩ := List.append_of_mem hm
    refine ⟨front, _, behind, hvisits, rfl, hdoc, fun other ho he => ?_⟩
    have hother : other ∈ documentedVisits files := by simp [hvisits, ho]
    rw [hvisits] at hbefore
    obtain ⟨-, hrest, -⟩ := List.pairwise_append.mp hbefore
    obtain ⟨hlt, -⟩ := List.pairwise_cons.mp hrest
    have hle := hlast other.address other.message.doc
      (hpath hother he ▸ (mem_documentedVisits.mp hother).1)
    exact not_lt_of_ge hle (hlt other ho)

end

-- Messages that are met under one dotted name have one path. A dotted name is a key exactly if a
-- message with its path is documented, the last of them gives the doc, and the keys are in the
-- order of the first ones.
theorem messageDocs_by_path {files : List File} (hf : AreParsed files) :
    (∀ path, IsPath path →
      (dotted path ∈ (messageDocs files).keys ↔
        ∃ address doc, IsDocumentedAt files address path doc) ∧
      ∀ doc, (messageDocs files).get? (dotted path) = some doc ↔
        ∃ last, IsDocumentedAt files last path doc ∧
          ∀ other doc, IsDocumentedAt files other path doc → other ≤ last) ∧
    (∃ paths : List (List String), (messageDocs files).keys = paths.map dotted ∧
      (∀ path, path ∈ paths ↔ ∃ address doc, IsDocumentedAt files address path doc) ∧
      paths.Pairwise fun path other =>
        ∃ first doc, IsDocumentedAt files first path doc ∧
          ∀ later doc, IsDocumentedAt files later other doc → first < later) ∧
    ∀ address path message other otherPath another, StandsAmong files address path message →
      StandsAmong files other otherPath another →
        IsPath path ∧ (dotted path = dotted otherPath → path = otherPath) := by
  refine ⟨fun path hp => ⟨?_, get?_dotted hf hp⟩,
    ⟨_, keys_messageDocs hf, fun _ => mem_documentedPaths, pairwise_documentedPaths files⟩, ?_⟩
  · rw [keys_messageDocs hf, ← mem_documentedPaths, List.mem_map]
    constructor
    · rintro ⟨other, ho, he⟩
      obtain ⟨address, doc, message, hstands, -⟩ := mem_documentedPaths.mp ho
      exact dotted_inj (hstands.isPath hf) hp he ▸ ho
    · intro hm
      exact ⟨path, hm, rfl⟩
  · intro address path message other otherPath another hone hother
    exact ⟨hone.isPath hf, dotted_inj (hone.isPath hf) (hother.isPath hf)⟩

-- Two files in which messages are declared again, some of them without a doc
def declaredTwice : String :=
  "/** old */ message A \x7b\n/** inner */ message B \x7b\x7d\n\x7d\nmessage A \x7b\n"
    ++ "/** later */ message B \x7b\x7d\n\x7d\n"

def declaredAgain : String :=
  "message B \x7b\x7d\n/** other */ message B \x7b\x7d\n/** new */ message A \x7b\x7d\n"

theorem messageDocs_declared_again :
    ∃ first second, parse declaredTwice = .ok first ∧ parse declaredAgain = .ok second ∧
      (messageDocs [first, second]).pairs
        = [("A", ["new"]), ("A.B", ["later"]), ("B", ["other"])] ∧
      ∃ last, IsDocumentedAt [first, second] last ["A", "B"] ["later"] ∧
        ∀ other doc, IsDocumentedAt [first, second] other ["A", "B"] doc → other ≤ last := by
  have hpairs : ((parse declaredTwice).toOption.bind fun first =>
      (parse declaredAgain).toOption.map fun second => (messageDocs [first, second]).pairs)
        = some [("A", ["new"]), ("A.B", ["later"]), ("B", ["other"])] := by
    decide +kernel
  obtain ⟨first, hfirst, hpairs⟩ := Option.bind_eq_some_iff.mp hpairs
  obtain ⟨second, hsecond, hpairs⟩ := Option.map_eq_some_iff.mp hpairs
  have hfirst := toOption_eq_some.mp hfirst
  have hsecond := toOption_eq_some.mp hsecond
  have hparsed : AreParsed [first, second] :=
    List.forall_mem_cons.mpr
      ⟨⟨_, _, hfirst, rfl⟩, List.forall_mem_singleton.mpr ⟨_, _, hsecond, rfl⟩⟩
  have hpath : IsPath ["A", "B"] := ⟨by decide, by decide⟩
  have hget : (messageDocs [first, second]).get? (dotted ["A", "B"]) = some ["later"] := by
    rw [Dictionary.get?, hpairs]
    decide
  exact ⟨first, second, hfirst, hsecond, hpairs,
    (((messageDocs_by_path hparsed).1 _ hpath).2 _).mp hget⟩

end Codebook.Proto
