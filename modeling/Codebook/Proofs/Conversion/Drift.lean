import Codebook.Proofs.Conversion

namespace Codebook

open Declarations

-- The drift between the declarations and a definition is the symmetric difference of their names.
-- Names of the declarations are listed once, those of the definition as often as it has them.

-- Some of the names of a source, each of them once and in the order in which they came first
structure IsListing (source : List String) (p : String → Prop) (names : List String) : Prop where
  mem_iff : ∀ name, name ∈ names ↔ name ∈ source ∧ p name
  order : names.Pairwise fun a b => source.idxOf a < source.idxOf b

theorem isListing_eraseDups (source : List String) (p : String → Prop) [DecidablePred p] :
    IsListing source p (source.filter p).eraseDups where
  mem_iff name := by simp [List.mem_eraseDups]
  order := by
    rw [eraseDups_filter]
    exact (pairwise_idxOf_eraseDups source).filter _

theorem IsListing.nodup {source names : List String} {p : String → Prop}
    (h : IsListing source p names) : names.Nodup := by
  refine h.order.imp fun {a b} hlt he => ?_
  subst he
  exact Nat.lt_irrefl _ hlt

-- All names that are wanted are a listing as long as none of them comes again.
theorem isListing_filter_iff (source : List String) (p : String → Prop) [DecidablePred p] :
    IsListing source p (source.filter p) ↔ ∀ name, p name → source.count name ≤ 1 := by
  have hcount (name : String) (hp : p name) :
      (source.filter p).count name = source.count name :=
    List.count_filter (by simpa using hp)
  constructor
  · intro h name hp
    rw [← hcount name hp]
    exact List.nodup_iff_count_le_one.mp h.nodup name
  · intro h
    have hnodup : (source.filter p).Nodup := by
      refine List.nodup_iff_count_le_one.mpr fun name => ?_
      by_cases hp : p name
      · exact hcount name hp ▸ h name hp
      · have hnot : name ∉ source.filter p := by simp [hp]
        rw [List.count_eq_zero_of_not_mem hnot]
        exact Nat.zero_le 1
    have hlisting := isListing_eraseDups source p
    rwa [eraseDups_eq_self hnodup] at hlisting

-- The drift between names of which repeats do not count, and the names of a definition

section

variable (names defined : List String)

theorem missingInProto_between :
    (Drift.between names.eraseDups defined).missingInProto
      = (names.filter (· ∉ defined)).eraseDups := by
  rw [eraseDups_filter]
  exact List.filter_congr fun name _ => by simp

theorem missingInDeclarations_between :
    (Drift.between names.eraseDups defined).missingInDeclarations
      = defined.filter (· ∉ names) :=
  List.filter_congr fun name _ => by simp [List.mem_eraseDups]

theorem disjoint_between :
    (Drift.between names.eraseDups defined).missingInProto.Disjoint
      (Drift.between names.eraseDups defined).missingInDeclarations := by
  rw [missingInProto_between, missingInDeclarations_between]
  intro name hm hn
  simp only [List.mem_eraseDups, List.mem_filter, decide_eq_true_eq] at hm hn
  exact hm.2 hn.1

theorem isEmpty_between :
    (Drift.between names.eraseDups defined).isEmpty ↔ ∀ name, name ∈ names ↔ name ∈ defined := by
  have hproto := (isListing_eraseDups names (· ∉ defined)).mem_iff
  have hdeclarations := (isListing_eraseDups defined (· ∉ names)).mem_iff
  rw [← missingInProto_between] at hproto
  rw [← missingInDeclarations_between] at hdeclarations
  rw [Drift.isEmpty, Bool.and_eq_true, List.isEmpty_iff, List.isEmpty_iff,
    List.eq_nil_iff_forall_not_mem, List.eq_nil_iff_forall_not_mem]
  simp only [hproto, ← List.mem_eraseDups (l := (Drift.between _ _).missingInDeclarations),
    hdeclarations]
  grind

end

theorem driftOf_constantsOf (docs : Dictionary String (List String)) (entries : List Entry)
    (definition : Proto.Enumeration) :
    driftOf (constantsOf docs entries) definition
      = Drift.between (entries.map (·.name)).eraseDups (definition.values.map (·.name)) := by
  rw [driftOf, names_constantsOf, Dictionary.keys_ofList, List.map_map]
  rfl

-- Each list has the names that only its own side has. The first one is a listing of them. The
-- second one is such a listing exactly if no name that is missing in the declarations is repeated
-- in the definition; it has every name as often as the definition.
theorem drift_lists_iff {settings : Settings} {document : Document} {protos : List Proto.File}
    {generated : Generated} {definition : Proto.Enumeration}
    (h : compile settings document protos = .ok generated)
    (hd : definition? settings protos = some definition) :
    ∃ entries drift, readDeclarations settings document = .ok entries ∧
      generated.drift = some drift ∧
      let declared := entries.map (·.name)
      let defined := definition.values.map (·.name)
      IsListing declared (· ∉ defined) drift.missingInProto ∧
      (IsListing defined (· ∉ declared) drift.missingInDeclarations ↔
        ∀ name, name ∉ declared → defined.count name ≤ 1) ∧
      IsListing defined (· ∉ declared) drift.missingInDeclarations.eraseDups ∧
      (∀ name, name ∉ declared →
        drift.missingInDeclarations.count name = defined.count name) ∧
      drift.missingInProto.Disjoint drift.missingInDeclarations ∧
      (drift.isEmpty ↔ ∀ name, name ∈ declared ↔ name ∈ defined) := by
  obtain ⟨entries, hentries, -, rfl⟩ := compile_eq_ok.mp h
  have hdrift : (generatedOf settings protos entries).drift = some _ :=
    congrArg (Option.map _) hd
  rw [modelOf, driftOf_constantsOf] at hdrift
  refine ⟨entries, _, hentries, hdrift, ?_, ?_, ?_, ?_, disjoint_between _ _, isEmpty_between _ _⟩
  · rw [missingInProto_between]
    exact isListing_eraseDups _ _
  · rw [missingInDeclarations_between]
    exact isListing_filter_iff _ _
  · rw [missingInDeclarations_between]
    exact isListing_eraseDups _ _
  · intro name hn
    rw [missingInDeclarations_between]
    exact List.count_filter (by simpa using hn)

-- A definition that has a name twice which is not declared, with others in between
def waitTwice : Proto.File where
  enums := [⟨"ResponseCodeEnum", [], [⟨"WAIT", 13, [], Span.point {}⟩, ⟨"OK", 0, [], Span.point {}⟩,
    ⟨"LATE", 14, [], Span.point {}⟩, ⟨"WAIT", 13, [], Span.point {}⟩], Span.point {}⟩]

theorem drift_repeats_wait :
    ∃ generated drift, compile {} twoCodes [waitTwice] = .ok generated ∧
      generated.drift = some drift ∧ drift = ⟨["BUSY"], ["WAIT", "LATE", "WAIT"]⟩ ∧
      ¬ IsListing ["WAIT", "OK", "LATE", "WAIT"] (· ∉ ["OK", "BUSY"])
        drift.missingInDeclarations := by
  have hcompile : compile {} twoCodes [waitTwice] = .ok (generatedOf {} [waitTwice] _) :=
    compile_eq_ok.mpr ⟨_, readDeclarations_twoCodes,
      fun _ column => by cases column <;> decide, rfl⟩
  obtain ⟨entries, drift, hentries, hdrift, -, hlisting, -⟩ := drift_lists_iff hcompile rfl
  obtain rfl := Except.ok.inj (readDeclarations_twoCodes.symm.trans hentries)
  have hlists : drift = ⟨["BUSY"], ["WAIT", "LATE", "WAIT"]⟩ :=
    Option.some.inj (hdrift.symm.trans (by decide +kernel))
  refine ⟨_, drift, hcompile, hdrift, hlists, fun hl => ?_⟩
  exact absurd (hlisting.mp hl "WAIT" (by decide)) (by decide)

end Codebook
