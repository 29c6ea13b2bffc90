import Codebook.Command.Plan
import Codebook.Proofs.Command.Arguments
import Codebook.Proofs.Generation

namespace Codebook.Command

-- What a command line does to the files, and what its exit code says about that.

section

variable {view : Files.View} {request : GenerateRequest} {generated : Generated}
  (verbosity : Nat)

-- Settings, inputs and the class are as they have to be, so that there is something to write.
def GenerateRequest.Compiles (request : GenerateRequest) (view : Files.View)
    (generated : Generated) : Prop :=
  ∃ settings document paths protos, request.settings view = .ok settings ∧
    readDocument view settings.declarations = .ok document ∧
    protoPaths view settings.protoFolder = .ok paths ∧
    paths.mapM (readProto view) = .ok protos ∧
    compile settings document protos = .ok generated

def GenerateRequest.report (request : GenerateRequest) (view : Files.View) : Report Generated := do
  generate view (← Report.ofExcept (request.settings view))

theorem report_eq_ok :
    (request.report view).result = .ok generated ↔ request.Compiles view generated := by
  unfold GenerateRequest.report GenerateRequest.Compiles
  rw [Report.result_bind, Report.result_ofExcept, bind_eq_ok]
  simp only [generate_eq_ok]
  constructor
  · rintro ⟨settings, hsettings, document, paths, protos, h⟩
    exact ⟨settings, document, paths, protos, hsettings, h⟩
  · rintro ⟨settings, document, paths, protos, hsettings, h⟩
    exact ⟨settings, hsettings, document, paths, protos, h⟩

theorem planGenerate_of_compiles (h : request.Compiles view generated) :
    ∃ notices, planGenerate view verbosity request =
      if request.stdout then
        .finish
          { exit := 0, output := generated.code ++ jsonText request.json generated.json
            notices, verbosity }
      else
        .write generated.output generated.code
          (afterWriting verbosity request.json notices generated) := by
  refine ⟨recordNotices (request.report view).records, ?_⟩
  have hresult := report_eq_ok.mpr h
  simp only [planGenerate, ← GenerateRequest.report.eq_1, hresult]

theorem planGenerate_of_not_compiles (h : ¬ ∃ generated, request.Compiles view generated) :
    ∃ notices failure, planGenerate view verbosity request
      = .finish (failureOutcome verbosity notices failure) := by
  cases hresult : (request.report view).result with
  | error failure =>
      refine ⟨recordNotices (request.report view).records, failure, ?_⟩
      simp only [planGenerate, ← GenerateRequest.report.eq_1, hresult]
  | ok generated => exact absurd ⟨generated, report_eq_ok.mp hresult⟩ h

theorem GenerateRequest.Compiles.exists_settings (h : request.Compiles view generated) :
    ∃ settings, request.settings view = .ok settings := by
  obtain ⟨settings, document, paths, protos, hsettings, -⟩ := h
  exact ⟨settings, hsettings⟩

theorem GenerateRequest.Compiles.output (h : request.Compiles view generated) {settings : Settings}
    (hs : request.settings view = .ok settings) : generated.output = settings.output := by
  obtain ⟨found, document, paths, protos, hsettings, -, -, -, hcompile⟩ := h
  obtain ⟨entries, -, -, rfl⟩ := compile_eq_ok.mp hcompile
  rw [Except.ok.inj (hs.symm.trans hsettings)]
  rfl

end

-- There is something to write, and the tree with it written
def GenerateRequest.Writes (request : GenerateRequest) (tree : Files.Tree) (generated : Generated)
    (after : Files.Tree) : Prop :=
  request.Compiles tree.view generated ∧
    tree.write generated.output generated.code.toUTF8 = .ok after

-- A text that a command line sets out to write, and that it writes wherever the tree lets it
structure SetsOut (tree : Files.Tree) (arguments : List String) (path text : String) : Prop where
  planned : ∃ next, plan tree.view arguments = .write path text next
  written : ∀ after, tree.write path text.toUTF8 = .ok after →
    (run tree arguments).1.exit = 0 ∧ (run tree arguments).2 = after

section

variable {arguments : List String} {verbosity : Nat} {request : GenerateRequest}
  (h : Arguments.read arguments = some ⟨verbosity, .generate request⟩) (tree : Files.Tree)

include h

theorem plan_generate : plan tree.view arguments = planGenerate tree.view verbosity request := by
  simp only [plan, h, Arguments.plan]

-- Without a result nothing is written.
theorem run_of_not_compiles (hc : ¬ ∃ generated, request.Compiles tree.view generated) :
    (run tree arguments).1.exit ≠ 0 ∧ (run tree arguments).2 = tree := by
  obtain ⟨notices, failure, hfailed⟩ := planGenerate_of_not_compiles verbosity hc
  rw [run, plan_generate h, hfailed]
  exact ⟨Nat.one_ne_zero, rfl⟩

section

variable {generated : Generated} (hgenerated : request.Compiles tree.view generated)

include hgenerated

-- The text of a result is on the screen, and nothing is written.
theorem run_of_stdout (hs : request.stdout) :
    (run tree arguments).1.exit = 0 ∧ (run tree arguments).2 = tree ∧
      generated.code.toList <+: (run tree arguments).1.output.toList := by
  obtain ⟨notices, hshown⟩ := planGenerate_of_compiles verbosity hgenerated
  rw [if_pos hs] at hshown
  rw [run, plan_generate h, hshown]
  refine ⟨rfl, rfl, ?_⟩
  show _ <+: (generated.code ++ _).toList
  rw [String.toList_append]
  exact List.prefix_append _ _

theorem setsOut_of_not_stdout (hs : request.stdout = false) :
    SetsOut tree arguments generated.output generated.code := by
  obtain ⟨notices, hwritten⟩ := planGenerate_of_compiles verbosity hgenerated
  rw [hs, if_neg Bool.false_ne_true] at hwritten
  have hplan := (plan_generate h tree).trans hwritten
  refine ⟨⟨_, hplan⟩, fun after hwrite => ?_⟩
  rw [run, hplan, Plan.run, hwrite]
  exact ⟨rfl, rfl⟩

end

theorem run_of_not_writes (hs : request.stdout = false)
    (hn : ¬ ∃ generated after, request.Writes tree generated after) :
    (run tree arguments).1.exit ≠ 0 ∧ (run tree arguments).2 = tree := by
  by_cases hc : ∃ generated, request.Compiles tree.view generated
  · obtain ⟨generated, hgenerated⟩ := hc
    cases hwrite : tree.write generated.output generated.code.toUTF8 with
    | ok after => exact absurd ⟨generated, after, hgenerated, hwrite⟩ hn
    | error fault =>
        obtain ⟨notices, hwritten⟩ := planGenerate_of_compiles verbosity hgenerated
        rw [hs, if_neg Bool.false_ne_true] at hwritten
        rw [run, plan_generate h, hwritten, Plan.run, hwrite]
        exact ⟨Nat.one_ne_zero, rfl⟩
  · exact run_of_not_compiles h tree hc

-- The output on the screen begins with what would be written, and nothing is written.
theorem run_with_stdout (hs : "--stdout" ∈ arguments) :
    (run tree arguments).2 = tree ∧
      ((run tree arguments).1.exit = 0 ↔ ∃ generated, request.Compiles tree.view generated) ∧
      ((run tree arguments).1.exit = 0 → ∃ settings generated,
        request.settings tree.view = .ok settings ∧ request.Compiles tree.view generated ∧
        SetsOut tree (withoutStdout arguments) settings.output generated.code ∧
        generated.code.toList <+: (run tree arguments).1.output.toList) := by
  obtain ⟨hplain, hstdout⟩ := read_withoutStdout h
  by_cases hc : ∃ generated, request.Compiles tree.view generated
  · obtain ⟨generated, hgenerated⟩ := hc
    obtain ⟨settings, hsettings⟩ := hgenerated.exists_settings
    obtain ⟨hexit, hkept, hbegins⟩ := run_of_stdout h tree hgenerated (hstdout.mpr hs)
    have hunshown : (request.withStdout false).Compiles tree.view generated := hgenerated
    have hsets := setsOut_of_not_stdout hplain tree hunshown rfl
    rw [hgenerated.output hsettings] at hsets
    exact ⟨hkept, ⟨fun _ => ⟨generated, hgenerated⟩, fun _ => hexit⟩,
      fun _ => ⟨settings, generated, hsettings, hgenerated, hsets, hbegins⟩⟩
  · obtain ⟨hexit, hkept⟩ := run_of_not_compiles h tree hc
    exact ⟨hkept, ⟨fun he => absurd he hexit, fun hc' => absurd hc' hc⟩, fun he => absurd he hexit⟩

-- What is written stands where the output goes, and everything else is as it was. It is written
-- whenever there is something to write and it can be written.
theorem run_without_stdout (hs : "--stdout" ∉ arguments) :
    ((run tree arguments).1.exit = 0 ↔ ∃ generated after, request.Writes tree generated after) ∧
      (∀ generated after, request.Writes tree generated after →
        (run tree arguments).2 = after ∧ ∃ settings, request.settings tree.view = .ok settings ∧
          SetsOut tree arguments settings.output generated.code ∧
          after.text settings.output = .ok generated.code ∧
          ∀ place, place ≠ Files.way settings.output → after.node? place = tree.node? place) ∧
      ((run tree arguments).1.exit ≠ 0 → (run tree arguments).2 = tree) := by
  have hstdout : request.stdout = false := by
    simpa using mt (read_withoutStdout h).2.mp hs
  have hwritten {generated : Generated} {after : Files.Tree}
      (hw : request.Writes tree generated after) :
      (run tree arguments).1.exit = 0 ∧ (run tree arguments).2 = after :=
    (setsOut_of_not_stdout h tree hw.1 hstdout).written after hw.2
  refine ⟨⟨fun he => ?_, ?_⟩, fun generated after hw => ⟨(hwritten hw).2, ?_⟩, fun he => ?_⟩
  · by_contra hn
    exact (run_of_not_writes h tree hstdout hn).1 he
  · rintro ⟨generated, after, hw⟩
    exact (hwritten hw).1
  · obtain ⟨hgenerated, hwrite⟩ := hw
    obtain ⟨settings, hsettings⟩ := hgenerated.exists_settings
    have hsets := setsOut_of_not_stdout h tree hgenerated hstdout
    rw [hgenerated.output hsettings] at hsets hwrite
    have hplaced := Files.Tree.isWritten_of_write hwrite
    refine ⟨settings, hsettings, hsets, Files.Tree.text_of_find hplaced.find_self, ?_⟩
    intro place hne
    rw [hplaced.node?, if_neg hne]
  · refine (run_of_not_writes h tree hstdout ?_).2
    rintro ⟨generated, after, hw⟩
    exact he (hwritten hw).1

-- The effects of a command line that generates, in both modes of its output.
theorem run_generate :
    Arguments.read (withoutStdout arguments)
        = some ⟨verbosity, .generate (request.withStdout false)⟩ ∧
      ("--stdout" ∈ arguments →
        (run tree arguments).2 = tree ∧
        ((run tree arguments).1.exit = 0 ↔ ∃ generated, request.Compiles tree.view generated) ∧
        ((run tree arguments).1.exit = 0 → ∃ settings generated,
          request.settings tree.view = .ok settings ∧ request.Compiles tree.view generated ∧
          SetsOut tree (withoutStdout arguments) settings.output generated.code ∧
          generated.code.toList <+: (run tree arguments).1.output.toList)) ∧
      ("--stdout" ∉ arguments →
        ((run tree arguments).1.exit = 0 ↔
          ∃ generated after, request.Writes tree generated after) ∧
        ∀ generated after, request.Writes tree generated after →
          (run tree arguments).2 = after ∧ ∃ settings, request.settings tree.view = .ok settings ∧
            SetsOut tree arguments settings.output generated.code ∧
            after.text settings.output = .ok generated.code ∧
            ∀ place, place ≠ Files.way settings.output →
              after.node? place = tree.node? place) ∧
      ((run tree arguments).1.exit ≠ 0 → (run tree arguments).2 = tree) := by
  refine ⟨(read_withoutStdout h).1, run_with_stdout h tree, fun hs => ?_, fun he => ?_⟩
  · obtain ⟨hexit, hwritten, -⟩ := run_without_stdout h tree hs
    exact ⟨hexit, hwritten⟩
  · by_cases hs : "--stdout" ∈ arguments
    · exact (run_with_stdout h tree hs).1
    · exact (run_without_stdout h tree hs).2.2 he

end

-- The class of two codes on the screen, and written beside the declarations
def twoCodesArguments : List String :=
  ["generate", "--proto-dir", "services", "--declarations", "proto.d.ts", "-o", "Status.js",
    "--stdout"]

theorem run_generate_two_codes :
    let shown := run twoCodesTree twoCodesArguments
    let done := run twoCodesTree (withoutStdout twoCodesArguments)
    shown.1.exit = 0 ∧ shown.2 = twoCodesTree ∧
      done.1.exit = 0 ∧ twoCodesTree.text "Status.js" = .error .notFound ∧
      ∃ text, done.2.text "Status.js" = .ok text ∧ text.toList <+: shown.1.output.toList := by
  have hread : Arguments.read twoCodesArguments = some ⟨0, .generate
      { protoFolder := some "services", declarations := some "proto.d.ts"
        output := some "Status.js", stdout := true }⟩ := by
    decide +kernel
  obtain ⟨found, hgenerate, -⟩ := generate_twoCodes "Status.js"
  obtain ⟨document, paths, protos, h⟩ := generate_eq_ok.mp hgenerate
  obtain ⟨hplain, hshown, -⟩ := run_generate hread twoCodesTree
  obtain ⟨hkept, hexit, hbegins⟩ := hshown (by decide)
  have hzero := hexit.mpr ⟨found, twoCodesInto "Status.js", document, paths, protos, rfl, h⟩
  obtain ⟨settings, generated, hsettings, hgenerated, hsets, hbegins⟩ := hbegins hzero
  obtain rfl := Except.ok.inj hsettings
  -- the tree has room for any file of that name
  obtain ⟨after, hwrite⟩ : ∃ after,
      twoCodesTree.write "Status.js" generated.code.toUTF8 = .ok after := ⟨_, rfl⟩
  obtain ⟨hdone, hafter⟩ := hsets.written after hwrite
  have hwrites : GenerateRequest.Writes _ twoCodesTree generated after :=
    ⟨hgenerated, (hgenerated.output rfl) ▸ hwrite⟩
  obtain ⟨-, -, hwritten, -⟩ := run_generate hplain twoCodesTree
  obtain ⟨-, settings, hsettings, -, htext, -⟩ := (hwritten (by decide)).2 generated after hwrites
  obtain rfl := Except.ok.inj hsettings
  refine ⟨hzero, hkept, hdone, rfl, generated.code, ?_, hbegins⟩
  rw [hafter]
  exact htext

end Codebook.Command
