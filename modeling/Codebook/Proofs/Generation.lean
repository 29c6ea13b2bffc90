import Codebook.Generation
import Codebook.Proofs.Conversion
import Codebook.Proofs.Files.Tree

namespace Codebook

-- What a run reads, and what it takes for it to give a result.

variable {view other : Files.View} {settings : Settings} {generated : Generated}

theorem readDocument_eq_ok {path : String} {document : Document} :
    readDocument view path = .ok document ↔
      view.present path ∧ view.text path = .ok document.text ∧ document.path = path := by
  obtain ⟨there, text⟩ := document
  unfold readDocument
  cases view.present path with
  | false => simp
  | true =>
      cases view.text path with
      | error reason => simp
      | ok found => simp [and_comm, eq_comm]

theorem readDocument_congr {path : String} (hp : other.present path = view.present path)
    (ht : other.text path = view.text path) : readDocument other path = readDocument view path := by
  rw [readDocument, readDocument, hp, ht]

-- The names of the definition sources in a folder
def protoNames (view : Files.View) (folder : String) : List String :=
  (view.fileNames folder).filter (Files.hasExtension "proto")

theorem protoPaths_eq_ok {folder : String} {paths : List String} :
    protoPaths view folder = .ok paths ↔ view.isFolder folder ∧
      ((protoNames view folder).mergeSort fun a b => a ≤ b).map (Files.below folder) = paths := by
  unfold protoPaths
  cases view.isFolder folder with
  | false => simp
  | true => simp [protoNames]

theorem protoPaths_congr {folder : String} (hf : other.isFolder folder = view.isFolder folder)
    (hn : protoNames other folder = protoNames view folder) :
    protoPaths other folder = protoPaths view folder := by
  unfold protoNames at hn
  rw [protoPaths, protoPaths, hf, hn]

theorem mem_protoPaths {folder path : String} {paths : List String}
    (h : protoPaths view folder = .ok paths) :
    path ∈ paths ↔ ∃ name ∈ view.fileNames folder, Files.hasExtension "proto" name ∧
      Files.below folder name = path := by
  obtain ⟨-, rfl⟩ := protoPaths_eq_ok.mp h
  simp [protoNames, and_assoc]

theorem readProto_eq_ok {path : String} {file : Proto.File} (h : readProto view path = .ok file) :
    ∃ document parsed, readDocument view path = .ok document ∧
      Proto.parse document.text = .ok parsed := by
  unfold readProto parseProto at h
  simp only [bind_eq_ok, mapError_eq_ok] at h
  obtain ⟨document, hdocument, parsed, hparsed, -⟩ := h
  exact ⟨document, parsed, hdocument, hparsed⟩

theorem result_loadProto (path : String) : (loadProto view path).result = readProto view path := by
  unfold loadProto
  cases readProto view path <;> rfl

theorem result_loadEach (paths : List String) :
    (loadEach view paths).result = paths.mapM (readProto view) := by
  induction paths with
  | nil => rfl
  | cons path rest ih =>
      simp only [loadEach, List.mapM_cons, Report.result_bind, result_loadProto, ih]
      rfl

theorem result_discoverProtos (folder : String) :
    (discoverProtos view folder).result = protoPaths view folder := by
  unfold discoverProtos
  cases protoPaths view folder <;> rfl

-- A result is that of everything that is read.
theorem generate_eq_ok : (generate view settings).result = .ok generated ↔
    ∃ document paths protos, readDocument view settings.declarations = .ok document ∧
      protoPaths view settings.protoFolder = .ok paths ∧
      paths.mapM (readProto view) = .ok protos ∧
      compile settings document protos = .ok generated := by
  have hresult : (generate view settings).result = (do
      let document ← readDocument view settings.declarations
      let paths ← protoPaths view settings.protoFolder
      let protos ← paths.mapM (readProto view)
      compile settings document protos) := by
    simp only [generate, loadProtos, compileReport, Report.result_bind, Report.result_ofExcept,
      Report.result_say, result_discoverProtos, result_loadEach, bind_assoc]
    rfl
  rw [hresult]
  simp only [bind_eq_ok]
  constructor
  · rintro ⟨document, hdocument, paths, hpaths, protos, hprotos, h⟩
    exact ⟨document, paths, protos, hdocument, hpaths, hprotos, h⟩
  · rintro ⟨document, paths, protos, hdocument, hpaths, hprotos, h⟩
    exact ⟨document, hdocument, paths, hpaths, protos, hprotos, h⟩

theorem loadEach_congr {paths : List String}
    (h : ∀ path ∈ paths, readProto other path = readProto view path) :
    loadEach other paths = loadEach view paths := by
  induction paths with
  | nil => rfl
  | cons path rest ih =>
      obtain ⟨hpath, hrest⟩ := List.forall_mem_cons.mp h
      rw [loadEach, loadEach, loadProto, loadProto, hpath, ih hrest]

-- What follows a report matters only for the value that it gives.
theorem Report.bind_congr {α β : Type} {report : Report α} {next instead : α → Report β}
    (h : ∀ value, report.result = .ok value → instead value = next value) :
    report >>= instead = report >>= next := by
  obtain ⟨records, result⟩ := report
  cases result with
  | error failure => rfl
  | ok value =>
      show (⟨_, _⟩ : Report β) = ⟨_, _⟩
      rw [h value rfl]

-- A run sees no more of the files than what it reads.
theorem generate_congr
    (hd : readDocument other settings.declarations = readDocument view settings.declarations)
    (hf : protoPaths other settings.protoFolder = protoPaths view settings.protoFolder)
    (hp : ∀ paths, protoPaths view settings.protoFolder = .ok paths →
      ∀ path ∈ paths, readProto other path = readProto view path) :
    generate other settings = generate view settings := by
  have hfound : discoverProtos other settings.protoFolder
      = discoverProtos view settings.protoFolder := by
    rw [discoverProtos, discoverProtos, hf]
  have hload : loadProtos other settings.protoFolder = loadProtos view settings.protoFolder := by
    rw [loadProtos, loadProtos, hfound]
    refine Report.bind_congr fun paths hpaths => loadEach_congr (hp paths ?_)
    rw [← hpaths, result_discoverProtos]
  rw [generate, generate, hd, hload]

variable {tree after : Files.Tree}

-- A result is written to its output. Any failure leaves the tree as it is.

theorem generateInto_of_error {failure : Failure}
    (h : (generate tree.view settings).result = .error failure) :
    generateInto tree settings = (generate tree.view settings, tree) := by
  simp only [generateInto, h]

theorem generateInto_of_written (h : (generate tree.view settings).result = .ok generated)
    (hw : tree.write generated.output generated.code.toUTF8 = .ok after) :
    (generateInto tree settings).1.result = .ok generated ∧
      (generateInto tree settings).2 = after := by
  simp only [generateInto, h, hw, Report.result_bind]
  exact ⟨rfl, trivial⟩

theorem generateInto_of_unwritten {fault : Files.FileFault}
    (h : (generate tree.view settings).result = .ok generated)
    (hw : tree.write generated.output generated.code.toUTF8 = .error fault) :
    (generateInto tree settings).1.result
        = .error (.unwritable generated.output fault.reason) ∧
      (generateInto tree settings).2 = tree := by
  simp only [generateInto, h, hw, Report.result_bind]
  exact ⟨rfl, trivial⟩

theorem generateInto_eq_ok (h : (generateInto tree settings).1.result = .ok generated) :
    (generate tree.view settings).result = .ok generated ∧
      tree.write generated.output generated.code.toUTF8 = .ok (generateInto tree settings).2 := by
  cases hresult : (generate tree.view settings).result with
  | error failure =>
      rw [generateInto_of_error hresult, hresult] at h
      simp at h
  | ok found =>
      cases hwrite : tree.write found.output found.code.toUTF8 with
      | error fault =>
          rw [(generateInto_of_unwritten hresult hwrite).1] at h
          simp at h
      | ok next =>
          obtain ⟨hfound, hafter⟩ := generateInto_of_written hresult hwrite
          obtain rfl := Except.ok.inj (hfound.symm.trans h)
          exact ⟨rfl, hafter ▸ hwrite⟩

theorem generateInto_error {failure : Failure}
    (h : (generateInto tree settings).1.result = .error failure) :
    (generateInto tree settings).2 = tree := by
  cases hresult : (generate tree.view settings).result with
  | error failure => rw [generateInto_of_error hresult]
  | ok found =>
      cases hwrite : tree.write found.output found.code.toUTF8 with
      | error fault => exact (generateInto_of_unwritten hresult hwrite).2
      | ok next =>
          rw [(generateInto_of_written hresult hwrite).1] at h
          simp at h

theorem readDocument_of_find {path : String} (text : String)
    (h : tree.find path = .ok (.file text.toUTF8)) :
    readDocument tree.view path = .ok ⟨path, text⟩ := by
  refine readDocument_eq_ok.mpr ⟨?_, ?_, rfl⟩
  · show (tree.find path).isOk = true
    rw [h]
    rfl
  · show (tree.text path).mapError Files.FileFault.reason = _
    rw [Files.Tree.text_of_find h]
    rfl

-- Declarations with two codes, and a definition source that is empty

def twoCodesTree : Files.Tree :=
  ⟨⟨[(["proto.d.ts"], .file twoCodes.text.toUTF8), (["services"], .folder),
    (["services", "empty.proto"], .file "".toUTF8)]⟩⟩

def twoCodesInto (output : String) : Settings :=
  { protoFolder := "services", declarations := "proto.d.ts", output }

theorem generate_twoCodes (output : String) : ∃ generated,
    (generate twoCodesTree.view (twoCodesInto output)).result = .ok generated ∧
      generated.output = output := by
  have hdocument : readDocument twoCodesTree.view "proto.d.ts" = .ok twoCodes :=
    readDocument_of_find twoCodes.text rfl
  have hpaths : protoPaths twoCodesTree.view "services" = .ok ["services/empty.proto"] := by
    decide +kernel
  have hproto : readProto twoCodesTree.view "services/empty.proto"
      = .ok { path := some "services/empty.proto" } :=
    bind_eq_ok.mpr ⟨⟨"services/empty.proto", ""⟩, readDocument_of_find "" rfl,
      bind_eq_ok.mpr ⟨{}, mapError_eq_ok.mpr parse_empty, rfl⟩⟩
  have hprotos : ["services/empty.proto"].mapM (readProto twoCodesTree.view)
      = .ok [{ path := some "services/empty.proto" }] := by
    rw [List.mapM_cons]
    exact bind_eq_ok.mpr ⟨_, hproto, rfl⟩
  refine ⟨_, generate_eq_ok.mpr ⟨twoCodes, _, _, hdocument, hpaths, hprotos,
    compile_eq_ok.mpr ⟨_, readDeclarations_twoCodes, fun _ column => ?_, rfl⟩⟩, rfl⟩
  cases column <;> decide

end Codebook
