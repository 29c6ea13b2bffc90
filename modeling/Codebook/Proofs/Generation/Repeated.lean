import Codebook.Proofs.Conversion.NoInput
import Codebook.Proofs.Generation

namespace Codebook

open Files

-- What a second run makes of the files that a run leaves.

-- The output stands where one of the inputs is read: at the declarations, or among the
-- definition sources.
def Settings.WritesInput (settings : Settings) : Prop :=
  way settings.output = way settings.declarations ∨
    ∃ name, way settings.output = way settings.protoFolder ++ [name] ∧
      hasExtension "proto" name

section

variable {settings : Settings} {tree after : Tree} {path : String} {content : ByteArray}

theorem exists_find_of_present (h : tree.view.present path) :
    ∃ node, tree.find path = .ok node := by
  have hfound : (tree.find path).isOk := h
  cases hfind : tree.find path with
  | error fault => simp [hfind, Except.isOk, Except.toBool] at hfound
  | ok node => exact ⟨node, rfl⟩

theorem find_of_isFolder (h : tree.view.isFolder path) : tree.find path = .ok .folder := by
  have hfound : tree.isFolder path = true := h
  unfold Tree.isFolder at hfound
  split at hfound
  · rename_i hfolder
    exact hfolder
  · simp at hfound

theorem nameIn_eq_some {folder : List String} {place : List String × Node} {name : String}
    (h : Tree.nameIn folder place = some name) : place.1 = folder ++ [name] ∧ isEntry name := by
  unfold Tree.nameIn at h
  split at h
  · simp at h
  · split at h
    · rename_i hfolder
      obtain ⟨hlast, hentry⟩ := Option.filter_eq_some_iff.mp h
      obtain ⟨front, hfront⟩ := List.getLast?_eq_some_iff.mp hlast
      rw [hfront, List.dropLast_concat] at hfolder
      exact ⟨by rw [hfront, hfolder], hentry⟩
    · simp at h

theorem isEntry_of_mem_fileNames {folder name : String} (h : name ∈ tree.fileNames folder) :
    isEntry name := by
  obtain ⟨place, -, hname⟩ := List.mem_filterMap.mp h
  exact (nameIn_eq_some hname).2

-- The definition sources are at names in their folder.
theorem exists_name_of_mem {folder : String} {paths : List String}
    (hp : protoPaths tree.view folder = .ok paths) (hm : path ∈ paths) :
    ∃ name, way path = way folder ++ [name] ∧ hasExtension "proto" name := by
  obtain ⟨name, hname, hextension, rfl⟩ := (mem_protoPaths hp).mp hm
  exact ⟨name, way_below (isEntry_of_mem_fileNames hname) folder, hextension⟩

-- A file that is not among the definition sources does not change which there are.
theorem protoNames_of_isWritten (h : tree.IsWritten path content after) {folder : String}
    (hno : ¬ ∃ name, way path = way folder ++ [name] ∧ hasExtension "proto" name) :
    protoNames after.view folder = protoNames tree.view folder := by
  show (after.fileNames folder).filter _ = (tree.fileNames folder).filter _
  rcases h.fileNames folder with hsame | hadded
  · rw [hsame]
  · rw [hadded, List.filter_append]
    cases hname : Tree.nameIn (way folder) (way path, .file content) with
    | none => simp
    | some name =>
        have hextension : ¬ hasExtension "proto" name := fun he =>
          hno ⟨name, (nameIn_eq_some hname).1, he⟩
        simp [hextension]

end

section

variable {settings : Settings} {tree after : Tree} {generated : Generated} {path : String}

-- Files that are no input are read as before.
theorem generate_of_isWritten {content : ByteArray}
    (h : (generate tree.view settings).result = .ok generated)
    (hw : tree.IsWritten settings.output content after) (hno : ¬ settings.WritesInput) :
    generate after.view settings = generate tree.view settings := by
  obtain ⟨document, paths, protos, hdocument, hpaths, hprotos, -⟩ := generate_eq_ok.mp h
  obtain ⟨hdeclarations, hsources⟩ := not_or.mp hno
  -- what is there and stands elsewhere is seen as it was
  have hread {path : String} (hp : tree.view.present path) (hne : way path ≠ way settings.output) :
      readDocument after.view path = readDocument tree.view path := by
    obtain ⟨node, hfind⟩ := exists_find_of_present hp
    obtain ⟨hpresent, -, htext⟩ := Tree.view_of_find ((hw.find_of_ne hfind hne).trans hfind.symm)
    exact readDocument_congr hpresent htext
  have hpathsAfter : protoPaths after.view settings.protoFolder
      = protoPaths tree.view settings.protoFolder := by
    have hfind := find_of_isFolder (protoPaths_eq_ok.mp hpaths).1
    have hne := hw.way_ne_of_folder (Tree.node?_of_find hfind)
    obtain ⟨-, hfolder, -⟩ := Tree.view_of_find ((hw.find_of_ne hfind hne).trans hfind.symm)
    exact protoPaths_congr hfolder (protoNames_of_isWritten hw hsources)
  refine generate_congr (hread (readDocument_eq_ok.mp hdocument).1 (Ne.symm hdeclarations))
    hpathsAfter fun found hfound path hm => ?_
  obtain rfl := Except.ok.inj (hpaths.symm.trans hfound)
  obtain ⟨file, hfile⟩ := (exists_of_mapM_eq_ok hprotos).1 path hm
  obtain ⟨source, -, hsource, -⟩ := readProto_eq_ok hfile
  have hne : way path ≠ way settings.output := by
    intro he
    obtain ⟨name, hname, hextension⟩ := exists_name_of_mem hpaths hm
    exact hsources ⟨name, he ▸ hname, hextension⟩
  rw [readProto, readProto, hread (readDocument_eq_ok.mp hsource).1 hne]

-- What is read where a text was written is that text.
theorem text_of_isWritten {output text : String} {document : Document}
    (hw : tree.IsWritten output text.toUTF8 after) (he : way path = way output)
    (hd : readDocument after.view path = .ok document) : document.text = text := by
  obtain ⟨hpresent, hread, -⟩ := readDocument_eq_ok.mp hd
  obtain ⟨node, hfind⟩ := exists_find_of_present hpresent
  rw [hw.eq_of_find hfind he] at hfind
  have htext : after.view.text path = .ok text := by
    show (after.text path).mapError FileFault.reason = _
    rw [Tree.text_of_find hfind]
    rfl
  exact Except.ok.inj (hread.symm.trans htext)

-- The text of a class is refused where an input is read.
theorem generate_ne_ok_of_isWritten {model : Script.ClassModel} (hm : model.IsPlain)
    (hw : tree.IsWritten settings.output
      (Script.classPage settings.style model).text.toUTF8 after)
    (hi : settings.WritesInput) (again : Generated) :
    (generate after.view settings).result ≠ .ok again := by
  intro h
  obtain ⟨document, paths, protos, hdocument, hpaths, hprotos, hcompile⟩ := generate_eq_ok.mp h
  rcases hi with hdeclarations | ⟨name, hname, hextension⟩
  · have htext := text_of_isWritten hw hdeclarations.symm hdocument
    obtain ⟨entries, hentries, -, -⟩ := compile_eq_ok.mp hcompile
    unfold readDeclarations at hentries
    simp only [bind_eq_ok, mapError_eq_ok, htext] at hentries
    obtain ⟨block, hblock, -⟩ := hentries
    exact firstBlock_classPage settings hm block hblock
  · have hlisted : name ∈ after.fileNames settings.protoFolder := hw.mem_fileNames hname
    have hentry := isEntry_of_mem_fileNames hlisted
    have hpath : below settings.protoFolder name ∈ paths :=
      (mem_protoPaths hpaths).mpr ⟨name, hlisted, hextension, rfl⟩
    obtain ⟨file, hfile⟩ := (exists_of_mapM_eq_ok hprotos).1 _ hpath
    obtain ⟨source, parsed, hsource, hparsed⟩ := readProto_eq_ok hfile
    have hway : way (below settings.protoFolder name) = way settings.output := by
      rw [way_below hentry, hname]
    rw [text_of_isWritten hw hway hsource] at hparsed
    exact parse_classPage settings model parsed hparsed

theorem areParsed_of_mapM {view : View} {paths : List String} {protos : List Proto.File}
    (h : paths.mapM (readProto view) = .ok protos) : Proto.AreParsed protos := by
  intro file hm
  obtain ⟨path, hread⟩ := (exists_of_mapM_eq_ok h).2 file hm
  unfold readProto parseProto at hread
  simp only [bind_eq_ok, mapError_eq_ok] at hread
  obtain ⟨document, -, parsed, hparsed, hfile⟩ := hread
  obtain rfl := Except.ok.inj hfile
  exact ⟨document.text, parsed, hparsed, rfl⟩

-- A second run, which begins with the files that the first one leaves

theorem second_of_beside (h : (generateInto tree settings).1.result = .ok generated)
    (hno : ¬ settings.WritesInput) :
    (generateInto (generateInto tree settings).2 settings).1.result = .ok generated ∧
      (generateInto (generateInto tree settings).2 settings).2
        = (generateInto tree settings).2 := by
  obtain ⟨hgenerate, hwrite⟩ := generateInto_eq_ok h
  obtain ⟨document, paths, protos, -, -, -, hcompile⟩ := generate_eq_ok.mp hgenerate
  obtain ⟨entries, -, -, rfl⟩ := compile_eq_ok.mp hcompile
  have hw := Tree.isWritten_of_write hwrite
  have hagain := generate_of_isWritten hgenerate hw hno
  exact generateInto_of_written (hagain ▸ hgenerate) hw.write_again

theorem second_of_writesInput (h : (generateInto tree settings).1.result = .ok generated)
    (hi : settings.WritesInput) :
    (∃ failure,
      (generateInto (generateInto tree settings).2 settings).1.result = .error failure) ∧
      (generateInto (generateInto tree settings).2 settings).2
        = (generateInto tree settings).2 := by
  obtain ⟨hgenerate, hwrite⟩ := generateInto_eq_ok h
  obtain ⟨document, paths, protos, -, -, hprotos, hcompile⟩ := generate_eq_ok.mp hgenerate
  obtain ⟨entries, hentries, -, rfl⟩ := compile_eq_ok.mp hcompile
  have hplain : (modelOf settings protos entries).IsPlain :=
    isPlain_modelOf (areParsed_of_mapM hprotos) (wellFormed_of_readDeclarations hentries)
  cases hresult : (generateInto (generateInto tree settings).2 settings).1.result with
  | error failure => exact ⟨⟨failure, rfl⟩, generateInto_error hresult⟩
  | ok again =>
      exact absurd (generateInto_eq_ok hresult).1
        (generate_ne_ok_of_isWritten hplain (Tree.isWritten_of_write hwrite) hi again)

-- A second run gives the same result and leaves the files as the first run left them, unless the
-- output is one of the inputs. A class is refused as an input, and then nothing is written.
theorem generateInto_twice (h : (generateInto tree settings).1.result = .ok generated) :
    let after := (generateInto tree settings).2
    (¬ settings.WritesInput →
      (generateInto after settings).1.result = .ok generated ∧
        (generateInto after settings).2 = after) ∧
      (settings.WritesInput →
        (∃ failure, (generateInto after settings).1.result = .error failure) ∧
          (generateInto after settings).2 = after) :=
  ⟨second_of_beside h, second_of_writesInput h⟩

-- The first of two runs, into some file of the tree
theorem generateInto_twoCodes (output : String)
    (h : ∀ content, ∃ after, twoCodesTree.write output content = .ok after) :
    ∃ generated,
      (generateInto twoCodesTree (twoCodesInto output)).1.result = .ok generated := by
  obtain ⟨generated, hgenerate, houtput⟩ := generate_twoCodes output
  obtain ⟨after, hwrite⟩ := h generated.code.toUTF8
  rw [← houtput] at hwrite
  exact ⟨generated, (generateInto_of_written hgenerate hwrite).1⟩

-- Two runs into a file beside the inputs
theorem generateInto_beside_twice : ∃ generated,
    let settings := twoCodesInto "Status.js"
    let first := generateInto twoCodesTree settings
    let second := generateInto first.2 settings
    first.1.result = .ok generated ∧ second.1.result = .ok generated ∧ second.2 = first.2 := by
  obtain ⟨generated, hfirst⟩ := generateInto_twoCodes "Status.js" fun _ => ⟨_, rfl⟩
  have hbeside : ¬ (twoCodesInto "Status.js").WritesInput := by
    have houtput : way "Status.js" = ["Status.js"] := by decide
    have hfolder : way "services" = ["services"] := by decide
    rintro (hway | ⟨name, hway, -⟩)
    · exact absurd hway (by decide)
    · have hplace : ["Status.js"] = ["services"] ++ [name] :=
        houtput.symm.trans (hway.trans (congrArg (· ++ [name]) hfolder))
      exact absurd (congrArg List.length hplace) (by simp)
  obtain ⟨hsecond, hkept⟩ := (generateInto_twice hfirst).1 hbeside
  exact ⟨generated, hfirst, hsecond, hkept⟩

-- A run into the declarations succeeds, and a second one does not.
theorem generateInto_declarations_once : ∃ generated failure,
    let settings := twoCodesInto "proto.d.ts"
    let first := generateInto twoCodesTree settings
    let second := generateInto first.2 settings
    first.1.result = .ok generated ∧ second.1.result = .error failure := by
  obtain ⟨generated, hfirst⟩ := generateInto_twoCodes "proto.d.ts" fun _ => ⟨_, rfl⟩
  obtain ⟨⟨failure, hsecond⟩, -⟩ := second_of_writesInput hfirst (.inl rfl)
  exact ⟨generated, failure, hfirst, hsecond⟩

end

end Codebook
