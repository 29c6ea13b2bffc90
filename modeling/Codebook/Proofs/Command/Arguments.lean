import Codebook.Command.Arguments
import Mathlib.Data.List.Basic

namespace Codebook.Command

-- What an argument list asks for when the flag for the output on the screen is left out of it.

def withoutStdout (arguments : List String) : List String := arguments.filter (· ≠ "--stdout")

def GenerateRequest.withStdout (request : GenerateRequest) (stdout : Bool) : GenerateRequest :=
  { request with stdout }

-- What stands in front of a subcommand is another flag.
theorem readOption_common : readOption [verbose, helpOption] "--stdout" = .done [] .wrong := by
  decide

theorem readOption_stdout :
    readOption generateShapes "--stdout" = .done [.flag "stdout"] .complete := by
  decide

-- The flag has no letter, and its name is the whole of the argument that gives it.

def Letters.given : Letters → List Given
  | done given _ => given
  | wants given _ => given

theorem given_behind (given : Given) (letters : Letters) :
    (letters.behind given).given = given :: letters.given := by
  cases letters <;> rfl

theorem exists_shape_of_readLetters {shapes : List OptionShape} {letters : List Char}
    {name : String} (h : .flag name ∈ (readLetters shapes letters).given) :
    ∃ shape ∈ shapes, shape.name = name ∧ shape.letter.isSome := by
  fun_induction readLetters shapes letters with
  | case7 c rest shape hshape _ _ ih =>
      rw [given_behind] at h
      rcases List.mem_cons.mp h with hname | hrest
      · have hletter : shape.letter = some c := by
          simpa using List.find?_some hshape
        exact ⟨shape, List.mem_of_find?_eq_some hshape, (Given.flag.inj hname).symm,
          by rw [hletter]; rfl⟩
      · exact ih hrest
  | _ => simp [Letters.given] at h

theorem eq_of_readLong {shapes : List OptionShape} {text : List Char} {name : String}
    (h : .flag name ∈ (readLong shapes text).given) : text = name.toList := by
  unfold readLong at h
  dsimp only at h
  split at h
  · simp [Letters.given] at h
  · split at h <;> simp [Letters.given] at h
  · rename_i hvalue
    split at h
    · simp [Letters.given] at h
    split at h
    · simp [Letters.given] at h
    · have hwhole : text.dropWhile (· != '=') = [] := by
        cases hdrop : text.dropWhile (· != '=') with
        | nil => rfl
        | cons c rest =>
            have hc : (c != '=') = false := by
              have hhead := List.head?_dropWhile_not (· != '=') text
              rwa [hdrop] at hhead
            obtain rfl : c = '=' := by simpa using hc
            exact (hvalue rest hdrop).elim
      have hname : name = String.ofList (text.takeWhile (· != '=')) :=
        Given.flag.inj (List.mem_singleton.mp h)
      rw [hname, String.toList_ofList]
      conv_lhs => rw [← List.takeWhile_append_dropWhile (p := (· != '=')) (l := text), hwhole]
      rw [List.append_nil]

theorem eq_stdout_of_readOption {argument : String}
    (h : .flag "stdout" ∈ (readOption generateShapes argument).given) :
    argument = "--stdout" := by
  unfold readOption at h
  split at h
  · rename_i name hargument
    rw [← String.toList_inj, hargument, eq_of_readLong h]
    rfl
  · obtain ⟨shape, hshape, hname, hletter⟩ := exists_shape_of_readLetters h
    have hnone : ∀ shape ∈ generateShapes, shape.name = "stdout" → shape.letter = none := by
      decide
    rw [hnone shape hshape hname] at hletter
    simp at hletter
  · simp [Letters.given] at h

-- The flag is given by nothing else, so leaving it out leaves out what it gives.

theorem withoutStdout_cons {argument : String} (h : argument ≠ "--stdout") (rest : List String) :
    withoutStdout (argument :: rest) = argument :: withoutStdout rest :=
  List.filter_cons_of_pos (by simpa using h)

def hidden (given : List Given) : List Given := given.filter (· ≠ .flag "stdout")

theorem hidden_of_notMem {given : List Given} (h : .flag "stdout" ∉ given) :
    hidden given = given := by
  refine List.filter_eq_self.mpr fun one hm => decide_eq_true ?_
  rintro rfl
  exact h hm

theorem hidden_append (front behind : List Given) :
    hidden (front ++ behind) = hidden front ++ hidden behind :=
  List.filter_append front behind

theorem foldr_behind (given : List Given) (reading : Reading) :
    given.foldr Reading.behind reading = ⟨given ++ reading.given, reading.ending⟩ := by
  induction given with
  | nil => rfl
  | cons first rest ih =>
      rw [List.foldr_cons, ih]
      rfl

theorem readGiven_withoutStdout {wanted : Option String} {rest : List String} {given : List Given}
    (h : readGiven generateShapes wanted rest = ⟨given, .complete⟩)
    (hp : ∀ text, .positional text ∉ given) :
    readGiven generateShapes wanted (withoutStdout rest) = ⟨hidden given, .complete⟩ ∧
      (.flag "stdout" ∈ given ↔ "--stdout" ∈ rest) := by
  fun_induction readGiven generateShapes wanted rest generalizing given with
  | case1 wanted =>
      obtain ⟨rfl, hending⟩ := Reading.mk.inj h
      refine ⟨?_, by simp⟩
      rw [withoutStdout, List.filter_nil, readGiven, hending]
      rfl
  | case2 => simp at h
  | case3 wanted rest hwanted _ =>
      obtain ⟨rfl, -⟩ := Reading.mk.inj h
      obtain rfl : rest = [] := by
        cases rest with
        | nil => rfl
        | cons text rest => exact absurd List.mem_cons_self (hp text)
      obtain rfl : wanted = none := by simpa using hwanted
      exact ⟨by decide, by decide⟩
  | case4 wanted argument rest hoption hwanted hdashes found hfound ih =>
      obtain rfl : wanted = none := by simpa using hwanted
      rw [foldr_behind] at h
      obtain ⟨rfl, hending⟩ := Reading.mk.inj h
      obtain ⟨hrest, hmem⟩ := ih (by rw [← hending])
        fun text hm => hp text (List.mem_append_right _ hm)
      by_cases hflag : argument = "--stdout"
      · subst hflag
        obtain ⟨rfl, -⟩ := Letters.done.inj (hfound.symm.trans readOption_stdout)
        rw [withoutStdout, List.filter_cons_of_neg (by decide), ← withoutStdout, hrest]
        exact ⟨rfl, by simp⟩
      · have hno : .flag "stdout" ∉ found := fun hm =>
          hflag (eq_stdout_of_readOption (by rw [hfound]; exact hm))
        rw [withoutStdout_cons hflag, readGiven, hidden_append, hidden_of_notMem hno]
        simp [hoption, hdashes, hfound, hrest, foldr_behind, hno, hmem, Ne.symm hflag]
  | case5 wanted argument rest hoption hwanted hdashes found ending hending hfound =>
      exact (hending (Reading.mk.inj h).2).elim
  | case6 wanted argument rest hoption hwanted hdashes found name hfound ih =>
      obtain rfl : wanted = none := by simpa using hwanted
      rw [foldr_behind] at h
      obtain ⟨rfl, hending⟩ := Reading.mk.inj h
      obtain ⟨hrest, hmem⟩ := ih (by rw [← hending])
        fun text hm => hp text (List.mem_append_right _ hm)
      have hflag : argument ≠ "--stdout" := by
        rintro rfl
        rw [readOption_stdout] at hfound
        simp at hfound
      have hno : .flag "stdout" ∉ found := fun hm =>
        hflag (eq_stdout_of_readOption (by rw [hfound]; exact hm))
      rw [withoutStdout_cons hflag, readGiven, hidden_append, hidden_of_notMem hno]
      simp [hoption, hdashes, hfound, hrest, foldr_behind, hno, hmem, Ne.symm hflag]
  | case7 argument rest hoption name ih =>
      obtain ⟨rfl, hending⟩ := Reading.mk.inj h
      obtain ⟨hrest, hmem⟩ := ih (by rw [← hending])
        fun text hm => hp text (List.mem_cons_of_mem _ hm)
      have hflag : argument ≠ "--stdout" := by
        rintro rfl
        exact hoption (by decide)
      rw [withoutStdout_cons hflag, readGiven]
      simp [hoption, hrest, hmem, Ne.symm hflag, Reading.behind, hidden]
  | case8 argument rest hoption ih =>
      obtain ⟨rfl, -⟩ := Reading.mk.inj h
      exact absurd List.mem_cons_self (hp argument)

-- What is added to a request does not depend on the flag, but for the flag itself.

theorem add_withStdout (request : GenerateRequest) (stdout : Bool) {given : Given}
    (h : given ≠ .flag "stdout") :
    (request.withStdout stdout).add given
      = (request.add given).map (·.withStdout stdout) := by
  unfold GenerateRequest.add
  split
  case h_9 => exact absurd rfl h
  all_goals
    simp only [GenerateRequest.withStdout, Option.pure_def, Option.bind_eq_bind, Option.map_bind,
      Function.comp_def, Option.map_some, Option.map_none]

theorem add_stdout {request next : GenerateRequest} (h : request.add (.flag "stdout") = some next) :
    next = request.withStdout true := by
  have hadd : request.add (.flag "stdout")
      = (onceFlag request.stdout).map request.withStdout := by
    simp only [GenerateRequest.add]
    cases onceFlag request.stdout <;> rfl
  obtain ⟨stdout, hstdout, rfl⟩ := Option.map_eq_some_iff.mp (hadd ▸ h)
  unfold onceFlag at hstdout
  split at hstdout
  · simp at hstdout
  · rw [Option.some.inj hstdout]

theorem foldlM_withoutStdout {given : List Given} {request last : GenerateRequest}
    (h : given.foldlM GenerateRequest.add request = some last) :
    (hidden given).foldlM GenerateRequest.add (request.withStdout false)
        = some (last.withStdout false) ∧
      (last.stdout ↔ request.stdout ∨ .flag "stdout" ∈ given) := by
  induction given generalizing request with
  | nil =>
      obtain rfl := Option.some.inj h
      simp [hidden]
  | cons first rest ih =>
      rw [List.foldlM_cons] at h
      obtain ⟨next, hnext, hrest⟩ := Option.bind_eq_some_iff.mp h
      obtain ⟨hlast, hstdout⟩ := ih hrest
      by_cases hflag : first = .flag "stdout"
      · subst hflag
        obtain rfl := add_stdout hnext
        have hhidden : hidden (.flag "stdout" :: rest) = hidden rest :=
          List.filter_cons_of_neg (by decide)
        rw [hhidden]
        exact ⟨hlast, by simp [hstdout, GenerateRequest.withStdout]⟩
      · have hhidden : hidden (first :: rest) = first :: hidden rest :=
          List.filter_cons_of_pos (by simpa using hflag)
        have hkept : next.stdout = request.stdout := by
          have hsame := add_withStdout request request.stdout hflag
          have hrequest : request.withStdout request.stdout = request := rfl
          rw [hrequest, hnext] at hsame
          rw [Option.some.inj hsame]
          rfl
        rw [hhidden, List.foldlM_cons, add_withStdout request false hflag, hnext]
        exact ⟨hlast, by simp [hstdout, hkept, Ne.symm hflag]⟩

theorem no_positional {given : List Given} {request last : GenerateRequest}
    (h : given.foldlM GenerateRequest.add request = some last) (text : String) :
    .positional text ∉ given := by
  induction given generalizing request with
  | nil => exact List.not_mem_nil
  | cons first rest ih =>
      rw [List.foldlM_cons] at h
      obtain ⟨next, hnext, hrest⟩ := Option.bind_eq_some_iff.mp h
      rw [List.mem_cons, not_or]
      refine ⟨?_, ih hrest⟩
      rintro rfl
      simp [GenerateRequest.add] at hnext

theorem verbosity_hidden (given : List Given) : verbosity (hidden given) = verbosity given :=
  List.count_filter (by decide)

-- Without the flag an argument list asks for the same, but for where the output goes.

theorem readGenerate_eq_some {reading : Reading} {request : GenerateRequest}
    (h : readGenerate reading = some (.generate request)) :
    reading.ending = .complete ∧
      reading.given.foldlM GenerateRequest.add {} = some request := by
  obtain ⟨found, hfound, hending⟩ := Option.bind_eq_some_iff.mp h
  cases hreading : reading.ending with
  | complete =>
      simp only [hreading] at hending
      obtain rfl := Request.generate.inj (Option.some.inj hending)
      exact ⟨rfl, hfound⟩
  | help => simp [hreading] at hending
  | wrong => simp [hreading] at hending

variable {verbosity : Nat} {request : GenerateRequest}

theorem readSubcommand_withoutStdout {before : Nat} {name : String} {rest : List String}
    (h : readSubcommand before name rest = some ⟨verbosity, .generate request⟩) :
    name = "generate" ∧
      readSubcommand before name (withoutStdout rest)
        = some ⟨verbosity, .generate (request.withStdout false)⟩ ∧
      (request.stdout ↔ "--stdout" ∈ rest) := by
  unfold readSubcommand at h
  split at h
  · rename_i hname
    subst hname
    obtain ⟨found, hfound, harguments⟩ := Option.bind_eq_some_iff.mp h
    obtain ⟨hverbosity, rfl⟩ := Arguments.mk.inj (Option.some.inj harguments)
    obtain ⟨hending, hadded⟩ := readGenerate_eq_some hfound
    have hgiven : readGiven generateShapes none rest
        = ⟨(readGiven generateShapes none rest).given, .complete⟩ := by
      rw [← hending]
    obtain ⟨hreading, hmem⟩ := readGiven_withoutStdout hgiven (no_positional hadded)
    obtain ⟨hhidden, hstdout⟩ := foldlM_withoutStdout hadded
    have hgenerate : readGenerate ⟨hidden (readGiven generateShapes none rest).given, .complete⟩
        = some (.generate (request.withStdout false)) := by
      have hempty : ({} : GenerateRequest).withStdout false = {} := rfl
      rw [hempty] at hhidden
      simp [readGenerate, hhidden]
    refine ⟨rfl, ?_, by simp [hstdout, hmem]⟩
    unfold readSubcommand
    rw [if_pos rfl, hreading]
    simp only [withVerbosity, verbosity_hidden, hgenerate, Option.bind_eq_bind, Option.bind_some]
    rw [hverbosity]
    rfl
  · split at h
    · obtain ⟨found, hfound, harguments⟩ := Option.bind_eq_some_iff.mp h
      obtain ⟨-, rfl⟩ := Arguments.mk.inj (Option.some.inj harguments)
      obtain ⟨⟨path, json⟩, -, hending⟩ := Option.bind_eq_some_iff.mp hfound
      dsimp only at hending
      split at hending <;> simp at hending
    · split at h
      · split at h
        · simp at h
        · split at h <;> simp at h
        · simp at h
      · simp at h

theorem readFrom_withoutStdout {before : Nat} {arguments : List String}
    (h : readFrom before arguments = some ⟨verbosity, .generate request⟩) :
    readFrom before (withoutStdout arguments)
        = some ⟨verbosity, .generate (request.withStdout false)⟩ ∧
      (request.stdout ↔ "--stdout" ∈ arguments) := by
  fun_induction readFrom before arguments with
  | case1 => simp at h
  | case2 before argument rest hoption given hgiven ih =>
      obtain ⟨hrest, hstdout⟩ := ih h
      have hflag : argument ≠ "--stdout" := by
        rintro rfl
        rw [readOption_common] at hgiven
        simp at hgiven
      rw [withoutStdout_cons hflag, readFrom]
      simp [hoption, hgiven, hrest, hstdout, Ne.symm hflag]
  | case3 => simp at h
  | case4 => simp at h
  | case5 before argument rest hoption =>
      obtain ⟨rfl, hrest, hstdout⟩ := readSubcommand_withoutStdout h
      rw [withoutStdout_cons (by decide), readFrom, if_neg hoption]
      exact ⟨hrest, by simp [hstdout]⟩

theorem read_withoutStdout {arguments : List String}
    (h : Arguments.read arguments = some ⟨verbosity, .generate request⟩) :
    Arguments.read (withoutStdout arguments)
        = some ⟨verbosity, .generate (request.withStdout false)⟩ ∧
      (request.stdout ↔ "--stdout" ∈ arguments) := readFrom_withoutStdout h

end Codebook.Command
