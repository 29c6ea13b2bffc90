import Codebook.Proofs.Conversion
import Mathlib.Tactic.ByContra

namespace Codebook

open Declarations Script

-- Whether the codes of the table are those of the constants. The table keeps the last name of a
-- code, and the constants keep the last code of a name, so a name that is declared again leaves
-- its earlier code behind unless that code is declared again as well.

-- Whenever the name of an entry comes again, so does its number
def CodesFollowNames (entries : List Entry) : Prop :=
  ∀ front entry behind, entries = front ++ entry :: behind →
    entry.name ∈ behind.map (·.name) → entry.number ∈ behind.map (·.number)

-- The constants with the name of a code have the code for their number
def CodesAgree (model : ClassModel) : Prop :=
  ∀ pair ∈ model.fromCode.names.pairs, ∀ constant ∈ model.constants,
    constant.name = pair.2 → toString constant.number = pair.1

theorem mem_keys_code {entries : List Entry} {n : Int} :
    toString n ∈ keys .code entries ↔ n ∈ entries.map (·.number) := by
  constructor
  · intro hm
    obtain ⟨entry, hentry, hkey⟩ := List.mem_map.mp hm
    exact List.mem_map.mpr ⟨entry, hentry, Number.toString_inj hkey⟩
  · intro hm
    obtain ⟨entry, hentry, rfl⟩ := List.mem_map.mp hm
    exact List.mem_map.mpr ⟨entry, hentry, rfl⟩

theorem codesFollowNames_of_nodup {entries : List Entry} (hn : (keys .name entries).Nodup) :
    CodesFollowNames entries := by
  rintro front entry behind rfl hagain
  simp only [keys, List.map_append, List.map_cons] at hn
  exact absurd hagain (List.nodup_cons.mp (List.nodup_append.mp hn).2.1).1

section

variable (settings : Settings) (protos : List Proto.File) (entries : List Entry)

-- A name of the table has exactly one constant.
theorem existsUnique_constant {pair : String × String}
    (hp : pair ∈ (modelOf settings protos entries).fromCode.names.pairs) :
    ∃! constant, constant ∈ (modelOf settings protos entries).constants ∧
      constant.name = pair.2 := by
  obtain ⟨entry, hl, -, hname⟩ := (Table.mem_pairs_lastWins .code entries pair.1 pair.2).mp hp
  have hkey : entry.name ∈ keys .name entries := List.mem_map.mpr ⟨entry, hl.mem, rfl⟩
  obtain ⟨last, hlast, hsame⟩ := exists_isLast hkey
  refine ⟨_, ⟨(mem_constantsOf _ entries _).mpr ⟨last, hlast, rfl⟩, hsame.trans hname⟩, ?_⟩
  rintro constant ⟨hm, hc⟩
  obtain ⟨other, hother, rfl⟩ := (mem_constantsOf _ entries constant).mp hm
  have heq : other = last :=
    isLast_unique hother hlast (hc.trans (hname.symm.trans hsame.symm))
  rw [heq]

theorem codesAgree_iff :
    CodesAgree (modelOf settings protos entries) ↔ CodesFollowNames entries := by
  constructor
  · rintro hagree front entry behind rfl hagain
    by_contra hn
    -- the entry is the last one of its code, but not of its name
    have hcode : IsLast .code (front ++ entry :: behind) entry :=
      ⟨front, behind, rfl, fun hk => hn (mem_keys_code.mp hk)⟩
    have hkey : entry.name ∈ keys .name behind := hagain
    obtain ⟨last, hlast, hname⟩ := exists_isLast hkey
    have hnumber := hagree (toString entry.number, entry.name)
      ((Table.mem_pairs_lastWins .code _ _ _).mpr ⟨entry, hcode, rfl, rfl⟩)
      (constantOf _ last) ((mem_constantsOf _ _ _).mpr ⟨last, hlast.of_behind _ _, rfl⟩) hname
    apply hn
    rw [← Number.toString_inj hnumber]
    exact List.mem_map.mpr ⟨last, hlast.mem, rfl⟩
  · rintro hfollow ⟨key, name⟩ hpair constant hm hname
    obtain ⟨entry, ⟨front, behind, rfl, hn⟩, rfl, rfl⟩ :=
      (Table.mem_pairs_lastWins .code entries key name).mp hpair
    obtain ⟨last, hlast, rfl⟩ := (mem_constantsOf _ _ constant).mp hm
    have hentry : IsLast .name (front ++ entry :: behind) entry := by
      refine ⟨front, behind, rfl, fun hagain => hn ?_⟩
      exact mem_keys_code.mpr (hfollow front entry behind rfl hagain)
    rw [isLast_unique hlast hentry hname]
    rfl

end

section

variable {settings : Settings} {protos : List Proto.File} {entries : List Entry}

-- What is read back returns instances with the codes that they are returned for exactly when the
-- constants agree with the table.
theorem fromCode_valueOf_iff (hp : Proto.AreParsed protos)
    (he : ∀ entry ∈ entries, entry.WellFormed)
    (hn : (membersOf settings.names
      ((modelOf settings protos entries).constants.map (·.name))).Nodup) :
    (∀ n subject, (readingOfCode settings (generatedOf settings protos entries)).fromCode n
        = .member (some subject) → subject.code = n) ↔
      CodesAgree (modelOf settings protos entries) := by
  constructor
  · rintro hvalue ⟨key, name⟩ hpair constant hm hname
    obtain ⟨entry, hl, rfl, rfl⟩ := (Table.mem_pairs_lastWins .code entries key name).mp hpair
    obtain ⟨order, hc⟩ := List.getElem?_of_mem hm
    have hnumber := hvalue _ _ (fromCode_of_isLast hp he hn hl hc hname)
    exact congrArg toString hnumber
  · intro hagree n subject hn'
    by_cases hdeclared : n ∈ entries.map (·.number)
    · obtain ⟨entry, hl, hkey⟩ := exists_isLast (mem_keys_code.mpr hdeclared)
      obtain rfl : entry.number = n := Number.toString_inj hkey
      have hpair := (Table.mem_pairs_lastWins .code entries _ _).mpr ⟨entry, hl, rfl, rfl⟩
      obtain ⟨constant, ⟨hm, hname⟩, -⟩ := existsUnique_constant settings protos entries hpair
      obtain ⟨order, hc⟩ := List.getElem?_of_mem hm
      rw [fromCode_of_isLast hp he hn hl hc hname] at hn'
      obtain rfl := Option.some.inj (Answer.member.inj hn')
      exact Number.toString_inj (hagree _ hpair constant hm hname)
    · rw [fromCode_of_notMem hp he hdeclared] at hn'
      exact Answer.noConfusion hn'

end

-- Every name of the code table has one constant. Its number is the code, and so is the number of
-- the instance that is returned for the code, exactly when codes follow names; they do whenever
-- duplicates are rejected.
theorem codes_agree_iff {settings : Settings} {document : Document} {protos : List Proto.File}
    {generated : Generated} (hp : Proto.AreParsed protos)
    (h : compile settings document protos = .ok generated) :
    ∃ entries fromCode, readDeclarations settings document = .ok entries ∧
      Table.ofEntries .code settings.duplicates entries = .ok fromCode ∧
      (generated.constants.map (·.name)).Nodup ∧
      (∀ pair ∈ fromCode.names.pairs,
        ∃! constant, constant ∈ generated.constants ∧ constant.name = pair.2) ∧
      ((∀ pair ∈ fromCode.names.pairs, ∀ constant ∈ generated.constants,
        constant.name = pair.2 → toString constant.number = pair.1) ↔ CodesFollowNames entries) ∧
      ((membersOf settings.names (generated.constants.map (·.name))).Nodup →
        ((∀ n subject, (readingOfCode settings generated).fromCode n = .member (some subject) →
          subject.code = n) ↔ CodesFollowNames entries)) ∧
      (settings.duplicates = .reject → CodesFollowNames entries) := by
  obtain ⟨entries, hentries, hpasses, rfl⟩ := compile_eq_ok.mp h
  have he := wellFormed_of_readDeclarations hentries
  have hagree := codesAgree_iff settings protos entries
  refine ⟨entries, Table.lastWins .code entries, hentries,
    Table.ofEntries_eq_ok.mpr ⟨fun hr => hpasses hr .code, rfl⟩, ?_, ?_, hagree, ?_, ?_⟩
  · exact names_nodup_constantsOf _ entries
  · intro pair hpair
    exact existsUnique_constant settings protos entries hpair
  · intro hn
    exact (fromCode_valueOf_iff hp he hn).trans hagree
  · intro hr
    exact codesFollowNames_of_nodup (hpasses hr .name)

-- A name that is declared with another code
def movedName : Document := ⟨"proto.d.ts", "enum ResponseCodeEnum \x7b\nA = 1,\nA = 2\n\x7d"⟩

def lastWinsRaw : Settings := { duplicates := .lastWins, names := .raw }

theorem readDeclarations_movedName :
    readDeclarations lastWinsRaw movedName = .ok [⟨"A", "1", 1, ⟨⟨24, 1, 0⟩, ⟨30, 1, 6⟩⟩⟩,
      ⟨"A", "2", 2, ⟨⟨31, 2, 0⟩, ⟨36, 2, 5⟩⟩⟩] := by
  rfl

theorem codes_disagree_for_moved_name :
    ∃ generated, compile lastWinsRaw movedName [emptySource] = .ok generated ∧
      ¬ ∀ n subject, (readingOfCode lastWinsRaw generated).fromCode n = .member (some subject) →
        subject.code = n := by
  have hcompile : compile lastWinsRaw movedName [emptySource]
      = .ok (generatedOf lastWinsRaw [emptySource] _) :=
    compile_eq_ok.mpr ⟨_, readDeclarations_movedName, nofun, rfl⟩
  refine ⟨_, hcompile, ?_⟩
  obtain ⟨entries, -, hentries, -, hnames, -, -, hvalue, -⟩ :=
    codes_agree_iff areParsed_emptySource hcompile
  obtain rfl := Except.ok.inj (readDeclarations_movedName.symm.trans hentries)
  have hmembers := hnames.map (f := memberName .raw) fun a b => id
  rw [hvalue hmembers]
  intro hfollow
  have hmoved := hfollow [] _ _ rfl List.mem_cons_self
  simp at hmoved

end Codebook
