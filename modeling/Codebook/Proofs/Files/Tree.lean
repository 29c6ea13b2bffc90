import Codebook.Files.Tree
import Codebook.Proofs.Dictionary
import Codebook.Proofs.Files.Path
import Codebook.Proofs.Result

namespace Codebook.Files.Tree

-- What writing a file changes of a tree: what is found where its path leads, and nothing else.

variable {tree after : Tree} {path : String} {content : ByteArray} {node : Node}

theorem node?_put {place : List String} (hp : place ≠ []) (tree : Tree) (node : Node)
    (other : List String) :
    (tree.put place node).node? other = if other = place then some node else tree.node? other := by
  by_cases hother : other = []
  · have hne : other ≠ place := hother ▸ hp.symm
    simp [node?, hother, hp.symm]
  · have hempty : other.isEmpty = false := by simpa using hother
    rw [node?, node?, hempty]
    exact Dictionary.get?_put tree.nodes place other node

-- Going on from a place leads through folders.

theorem descend_cons_eq_ok {above rest : List String} {name : String}
    (h : tree.descend above (name :: rest) = .ok node) :
    tree.node? above = some .folder ∧ name.utf8ByteSize ≤ nameLimit ∧
      tree.descend (goOn above name) rest = .ok node := by
  rw [descend] at h
  split at h
  · rename_i hfolder
    split at h
    · simp at h
    · rename_i hshort
      exact ⟨hfolder, Nat.le_of_not_lt hshort, h⟩
  · simp at h
  · simp at h

theorem descend_cons_of_folder {above : List String} (hf : tree.node? above = some .folder)
    (name : String) (rest : List String) :
    tree.descend above (name :: rest)
      = if nameLimit < name.utf8ByteSize then .error .tooLong
        else tree.descend (goOn above name) rest := by
  rw [descend, hf]

theorem node?_of_descend {above steps : List String} (h : tree.descend above steps = .ok node) :
    tree.node? (steps.foldl goOn above) = some node := by
  induction steps generalizing above with
  | nil =>
      rw [descend] at h
      split at h
      · rename_i hnode
        rw [List.foldl_nil, hnode, Except.ok.inj h]
      · simp at h
  | cons name rest ih => exact ih (descend_cons_eq_ok h).2.2

theorem descend_nil_of_node? {place : List String} (h : tree.node? place = some node) :
    tree.descend place [] = .ok node := by
  rw [descend, h]

theorem descend_concat {above front : List String} (h : tree.descend above front = .ok .folder)
    (last : String) :
    tree.descend above (front ++ [last])
      = if nameLimit < last.utf8ByteSize then .error .tooLong
        else tree.descend (goOn (front.foldl goOn above) last) [] := by
  induction front generalizing above with
  | nil => exact descend_cons_of_folder (node?_of_descend h) last []
  | cons name rest ih =>
      obtain ⟨hfolder, hshort, hrest⟩ := descend_cons_eq_ok h
      rw [List.cons_append, descend_cons_of_folder hfolder, if_neg (Nat.not_lt.mpr hshort),
        ih hrest, List.foldl_cons]

-- A file that is put where no folder stands is met at the end of a way only.
theorem descend_put {place above steps : List String} (hp : place ≠ [])
    (hfree : tree.node? place ≠ some .folder) (h : tree.descend above steps = .ok node)
    (hne : steps.foldl goOn above ≠ place) :
    (tree.put place (.file content)).descend above steps = .ok node := by
  induction steps generalizing above with
  | nil =>
      have hnode := node?_of_descend h
      rw [List.foldl_nil] at hnode hne
      apply descend_nil_of_node?
      rw [node?_put hp, if_neg hne, hnode]
  | cons name rest ih =>
      obtain ⟨hfolder, hshort, hrest⟩ := descend_cons_eq_ok h
      have hother : above ≠ place := by
        rintro rfl
        exact hfree hfolder
      have hkept : (tree.put place (.file content)).node? above = some .folder := by
        rw [node?_put hp, if_neg hother, hfolder]
      rw [descend_cons_of_folder hkept, if_neg (Nat.not_lt.mpr hshort)]
      exact ih hrest hne

theorem find_eq_ok : tree.find path = .ok node ↔
    pathFault? path = none ∧ tree.descend [] (names path) = .ok node ∧
      (node ≠ .folder → endsInFolder path = false) := by
  unfold find
  cases pathFault? path with
  | some fault => simp
  | none =>
      rw [bind_eq_ok]
      simp only [true_and]
      constructor
      · rintro ⟨found, hfound, h⟩
        cases found with
        | folder =>
            obtain rfl := Except.ok.inj h
            exact ⟨hfound, fun hne => absurd rfl hne⟩
        | file content =>
            dsimp only at h
            split at h
            · simp at h
            · rename_i hend
              obtain rfl := Except.ok.inj h
              exact ⟨hfound, fun _ => by simpa using hend⟩
      · rintro ⟨hfound, hend⟩
        refine ⟨node, hfound, ?_⟩
        cases node with
        | folder => rfl
        | file content =>
            dsimp only
            rw [if_neg (by simp [hend])]
            rfl

theorem node?_of_find (h : tree.find path = .ok node) : tree.node? (way path) = some node :=
  node?_of_descend (find_eq_ok.mp h).2.1

-- Everything that is so when a file was written
structure IsWritten (tree : Tree) (path : String) (content : ByteArray) (after : Tree) :
    Prop where
  noFault : pathFault? path = none
  noFolder : endsInFolder path = false
  entered : ∃ front last, names path = front ++ [last] ∧ tree.descend [] front = .ok .folder ∧
    last.utf8ByteSize ≤ nameLimit
  free : tree.node? (way path) ≠ some .folder
  put : after = tree.put (way path) (.file content)

theorem endsInPlace_of_names_eq_nil (h : names path = []) : endsInPlace path := by
  have hnone := List.filter_eq_nil_iff.mp (List.map_eq_nil_iff.mp h)
  unfold endsInPlace
  split
  · rename_i segment hlast
    obtain ⟨hin, -⟩ := List.mem_filter.mp (List.mem_of_getLast? hlast)
    simp [hnone segment hin]
  · rfl

theorem enter_eq_ok {steps : List String} :
    tree.enter steps = .ok () ↔ tree.descend [] steps = .ok .folder := by
  rw [enter, bind_eq_ok]
  constructor
  · rintro ⟨found, hfound, h⟩
    cases found with
    | folder => exact hfound
    | file content => simp at h
  · exact fun h => ⟨.folder, h, rfl⟩

-- Where a file is written, there is a file or nothing.
theorem writeAt_eq_ok {steps : List String} (h : tree.writeAt steps content = .ok after) :
    after = tree.put (steps.foldl goOn []) (.file content) ∧
      ((∃ before, tree.descend [] steps = .ok (.file before)) ∨
        tree.descend [] steps = .error .notFound) := by
  unfold writeAt at h
  dsimp only at h
  split at h
  · simp at h
  · rename_i before hfound
    exact ⟨(Except.ok.inj h).symm, .inl ⟨before, hfound⟩⟩
  · rename_i hfound
    exact ⟨(Except.ok.inj h).symm, .inr hfound⟩
  · simp at h

theorem isWritten_of_write (h : tree.write path content = .ok after) :
    tree.IsWritten path content after := by
  unfold write at h
  split at h
  · simp at h
  rename_i hfault
  split at h
  · obtain ⟨_, -, h⟩ := bind_eq_ok.mp h
    simp at h
  rename_i hplace
  obtain ⟨_, henter, h⟩ := bind_eq_ok.mp h
  split at h
  · simp at h
  rename_i hslash
  obtain ⟨hput, hfound⟩ := writeAt_eq_ok h
  have hnames : names path ≠ [] := mt endsInPlace_of_names_eq_nil hplace
  obtain ⟨front, last, hsplit⟩ : ∃ front last, names path = front ++ [last] :=
    ⟨_, _, (List.dropLast_append_getLast hnames).symm⟩
  have hfolder := enter_eq_ok.mp henter
  rw [hsplit, List.dropLast_concat] at hfolder
  have hend : way path = goOn (front.foldl goOn []) last := by
    rw [way, hsplit, List.foldl_append, List.foldl_cons, List.foldl_nil]
  have hwhole := descend_concat hfolder last
  rw [← hsplit, ← hend] at hwhole
  have hshort : ¬ nameLimit < last.utf8ByteSize := by
    intro hlong
    rw [if_pos hlong] at hwhole
    rcases hfound with ⟨before, hfound⟩ | hfound <;> simp [hwhole] at hfound
  rw [if_neg hshort] at hwhole
  refine ⟨hfault, ?_, ⟨front, last, hsplit, hfolder, Nat.le_of_not_lt hshort⟩, ?_, hput⟩
  · simp [endsInFolder, hplace, hslash]
  · intro hnode
    rw [descend_nil_of_node? hnode] at hwhole
    rcases hfound with ⟨before, hfound⟩ | hfound <;> simp [hwhole] at hfound

namespace IsWritten

variable (h : tree.IsWritten path content after)

include h

theorem way_ne_nil : way path ≠ [] := by
  intro he
  refine h.free ?_
  rw [he]
  rfl

theorem node? (place : List String) :
    after.node? place = if place = way path then some (.file content) else tree.node? place := by
  rw [h.put]
  exact node?_put h.way_ne_nil tree _ place

theorem way_ne_of_folder {place : List String} (hf : tree.node? place = some .folder) :
    place ≠ way path := by
  rintro rfl
  exact h.free hf

theorem descend_self : ∃ front last, names path = front ++ [last] ∧
    after.descend [] front = .ok .folder ∧
    after.descend [] (names path) = .ok (.file content) := by
  obtain ⟨front, last, hsplit, hfolder, hshort⟩ := h.entered
  have hend : goOn (front.foldl goOn []) last = way path := by
    rw [way, hsplit, List.foldl_append, List.foldl_cons, List.foldl_nil]
  have hkept : after.descend [] front = .ok .folder := by
    rw [h.put]
    exact descend_put h.way_ne_nil h.free hfolder (h.way_ne_of_folder (node?_of_descend hfolder))
  refine ⟨front, last, hsplit, hkept, ?_⟩
  rw [hsplit, descend_concat hkept, if_neg (Nat.not_lt.mpr hshort), hend]
  apply descend_nil_of_node?
  rw [h.node?, if_pos rfl]

theorem find_self : after.find path = .ok (.file content) := by
  obtain ⟨-, -, -, -, hfound⟩ := h.descend_self
  exact find_eq_ok.mpr ⟨h.noFault, hfound, fun _ => h.noFolder⟩

-- The same content can be written again, which changes nothing.
theorem write_again : after.write path content = .ok after := by
  obtain ⟨front, last, hsplit, hfolder, hfound⟩ := h.descend_self
  obtain ⟨hslash, hplace⟩ := Bool.or_eq_false_iff.mp h.noFolder
  have henter : after.enter (names path).dropLast = .ok () := by
    rw [hsplit, List.dropLast_concat]
    exact enter_eq_ok.mpr hfolder
  have hput : after.put (way path) (.file content) = after := by
    have hnode := h.node? (way path)
    rw [if_pos rfl, Tree.node?, if_neg (by simpa using h.way_ne_nil)] at hnode
    exact congrArg Tree.mk (Dictionary.put_of_get? hnode)
  have hat : after.writeAt (names path) content = .ok after := by
    rw [way] at hput
    simp only [writeAt, hfound, hput]
  simp [write, h.noFault, hplace, henter, hslash, hat, bind, Except.bind]

theorem find_of_ne {other : String} (hf : tree.find other = .ok node)
    (hne : way other ≠ way path) : after.find other = .ok node := by
  obtain ⟨hfault, hfound, hend⟩ := find_eq_ok.mp hf
  refine find_eq_ok.mpr ⟨hfault, ?_, hend⟩
  rw [h.put]
  exact descend_put h.way_ne_nil h.free hfound hne

theorem eq_of_find {other : String} (hf : after.find other = .ok node)
    (he : way other = way path) : node = .file content := by
  have hnode := node?_of_find hf
  rw [h.node?, if_pos he] at hnode
  exact (Option.some.inj hnode).symm

-- Every folder lists the files that it did, and the new one if it is the folder of that.
theorem fileNames (folder : String) :
    after.fileNames folder = tree.fileNames folder ∨
      after.fileNames folder = tree.fileNames folder
        ++ (nameIn (way folder) (way path, .file content)).toList := by
  rw [h.put, Tree.fileNames, Tree.fileNames]
  cases hbefore : tree.nodes.get? (way path) with
  | none =>
      right
      have hnew := (Dictionary.lookup_eq_none_iff _ _).mp hbefore
      show (Dictionary.putInto _ _ tree.nodes.pairs).filterMap _ = _
      rw [Dictionary.putInto_of_notMem hnew, List.filterMap_append]
      cases hname : nameIn (way folder) (way path, .file content) <;> simp [hname]
  | some before =>
      left
      have hfile : ∃ old, before = .file old := by
        cases before with
        | file old => exact ⟨old, rfl⟩
        | folder =>
            refine absurd ?_ h.free
            rw [Tree.node?, if_neg (by simpa using h.way_ne_nil), hbefore]
      obtain ⟨old, rfl⟩ := hfile
      exact Dictionary.filterMap_putInto hbefore rfl

theorem mem_fileNames {folder name : String} (hplace : way path = way folder ++ [name]) :
    name ∈ after.fileNames folder := by
  have hmem : name ∈ way path := by simp [hplace]
  have hentry : isEntry name := isEntry_of_mem_way hmem
  have hnode := h.node? (way path)
  rw [if_pos rfl, Tree.node?, if_neg (by simpa using h.way_ne_nil)] at hnode
  refine List.mem_filterMap.mpr ⟨_, Dictionary.mem_of_lookup hnode, ?_⟩
  simp [nameIn, hplace, hentry]

end IsWritten

-- What is found at a path is all that is seen there but for the files in a folder.
theorem view_of_find {other : String} (h : after.find other = tree.find other) :
    after.view.present other = tree.view.present other ∧
      after.view.isFolder other = tree.view.isFolder other ∧
      after.view.text other = tree.view.text other := by
  have hcontent : after.content other = tree.content other := by rw [content, content, h]
  refine ⟨congrArg Except.isOk h, ?_, congrArg (Except.mapError FileFault.reason) ?_⟩
  · show after.isFolder other = tree.isFolder other
    rw [isFolder, isFolder, h]
  · rw [text, text, hcontent]

theorem decodeText_toUTF8 (text : String) : decodeText text.toUTF8 = .ok text := by
  unfold decodeText String.fromUTF8?
  have hvalid : text.toUTF8.IsValidUTF8 := text.isValidUTF8
  rw [dif_pos hvalid]
  rfl

theorem text_of_find {text : String} (h : tree.find path = .ok (.file text.toUTF8)) :
    tree.text path = .ok text := by
  have hcontent : tree.content path = .ok text.toUTF8 := by
    rw [Tree.content, h]
    rfl
  rw [Tree.text, hcontent]
  exact decodeText_toUTF8 text

end Codebook.Files.Tree
