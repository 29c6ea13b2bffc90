import Codebook.Proofs.Conversion.Agreement

namespace Codebook

open Declarations Script

-- What the treatment of duplicates decides: only whether there is a result at all.

def Settings.treating (settings : Settings) (duplicates : Duplicates) : Settings :=
  { settings with duplicates }

-- A failure that points at an entry and says that another one defined its key first
def IsDuplicateFailure (document : Document) (entry first : Entry) (failure : Failure) : Prop :=
  ∃ diagnostic, failure = document.failure diagnostic ∧ diagnostic.kind = .duplicateKey ∧
    diagnostic.span = entry.span ∧ diagnostic.related = some first.span

-- Under the treatment that rejects, a run fails at the first entry that repeats a key.
def RejectsAt {κ : Type} (key : Entry → κ) (document : Document) (entries : List Entry)
    (result : Except Failure Generated) : Prop :=
  ∃ entry first failure, IsFirstRepeat key entries entry first ∧ result = .error failure ∧
    IsDuplicateFailure document entry first failure

section

variable {settings : Settings} {document : Document} {protos : List Proto.File}

theorem compile_of_unread {failure : Failure}
    (h : readDeclarations settings document = .error failure) (duplicates : Duplicates) :
    compile (settings.treating duplicates) document protos = .error failure := by
  have hread : readDeclarations (settings.treating duplicates) document = .error failure := h
  unfold compile
  rw [hread]
  rfl

-- The table by name is made before the one by code.
theorem compile_of_read {entries : List Entry}
    (h : readDeclarations settings document = .ok entries) (duplicates : Duplicates) :
    compile (settings.treating duplicates) document protos
      = match Table.ofEntries .name duplicates entries,
          Table.ofEntries .code duplicates entries with
        | .error fault, _ => .error (document.failure fault.diagnostic)
        | .ok _, .error fault => .error (document.failure fault.diagnostic)
        | .ok _, .ok _ => .ok (generatedOf settings protos entries) := by
  have hread : readDeclarations (settings.treating duplicates) document = .ok entries := h
  unfold compile
  rw [hread]
  show ((Table.ofEntries .name duplicates entries).mapError _ >>= fun toName =>
    (Table.ofEntries .code duplicates entries).mapError _ >>= fun fromCode => pure _) = _
  cases hname : Table.ofEntries .name duplicates entries with
  | error fault => rfl
  | ok toName =>
      cases hcode : Table.ofEntries .code duplicates entries with
      | error fault => rfl
      | ok fromCode =>
          obtain ⟨-, rfl⟩ := Table.ofEntries_eq_ok.mp hname
          obtain ⟨-, rfl⟩ := Table.ofEntries_eq_ok.mp hcode
          rfl

theorem rejectsAt_of_ofEntries {column : Column} {entries : List Entry}
    {result : Except Failure Generated} (hn : ¬ (keys column entries).Nodup)
    (h : ∀ fault, Table.ofEntries column .reject entries = .error fault →
      result = .error (document.failure fault.diagnostic)) :
    RejectsAt (Entry.key column) document entries result := by
  obtain ⟨entry, first, hfirst, htable⟩ := Table.ofEntries_eq_error hn
  exact ⟨entry, first, _, hfirst, h _ htable, _, rfl, rfl, rfl, rfl⟩

end

theorem RejectsAt.ne_ok {κ : Type} {key : Entry → κ} {document : Document}
    {entries : List Entry} {result : Except Failure Generated}
    (h : RejectsAt key document entries result) (generated : Generated) :
    result ≠ .ok generated := by
  obtain ⟨entry, first, failure, -, rfl, -⟩ := h
  exact nofun

-- The keys of the code column are numerals, and those are distinct when the numbers are.
theorem keys_code_nodup_iff (entries : List Entry) :
    (keys .code entries).Nodup ↔ (entries.map Entry.number).Nodup := by
  have hkeys : keys .code entries = (entries.map Entry.number).map toString := by
    rw [List.map_map]
    rfl
  rw [hkeys, List.nodup_map_iff fun _ _ => Number.toString_inj]

theorem RejectsAt.of_code {document : Document} {entries : List Entry}
    {result : Except Failure Generated}
    (h : RejectsAt (Entry.key .code) document entries result) :
    RejectsAt Entry.number document entries result := by
  obtain ⟨entry, first, failure, ⟨front, behind, hentries, hn, hm, hkey⟩, hfailure⟩ := h
  refine ⟨entry, first, failure, ⟨front, behind, hentries, ?_, hm, ?_⟩, hfailure⟩
  · exact (keys_code_nodup_iff front).mp hn
  · exact Number.toString_inj hkey

section

variable {settings : Settings} {document : Document} {entries : List Entry}
  (h : readDeclarations settings document = .ok entries) (protos : List Proto.File)

include h

theorem compile_lastWins : compile (settings.treating .lastWins) document protos
    = .ok (generatedOf settings protos entries) := by
  rw [compile_of_read h, Table.ofEntries_lastWins, Table.ofEntries_lastWins]

theorem compile_reject_of_nodup (hn : (entries.map Entry.name).Nodup)
    (hc : (entries.map Entry.number).Nodup) :
    compile (settings.treating .reject) document protos
      = .ok (generatedOf settings protos entries) := by
  have hnamed : Table.ofEntries .name .reject entries = .ok (Table.lastWins .name entries) :=
    Table.ofEntries_eq_ok.mpr ⟨fun _ => hn, rfl⟩
  have hcoded : Table.ofEntries .code .reject entries = .ok (Table.lastWins .code entries) :=
    Table.ofEntries_eq_ok.mpr ⟨fun _ => (keys_code_nodup_iff entries).mpr hc, rfl⟩
  rw [compile_of_read h, hnamed, hcoded]

theorem rejectsAt_name (hn : ¬ (entries.map Entry.name).Nodup) :
    RejectsAt Entry.name document entries
      (compile (settings.treating .reject) document protos) := by
  have hkeys : ¬ (keys .name entries).Nodup := hn
  refine rejectsAt_of_ofEntries hkeys fun fault htable => ?_
  rw [compile_of_read h, htable]

theorem rejectsAt_number (hn : (entries.map Entry.name).Nodup)
    (hc : ¬ (entries.map Entry.number).Nodup) :
    RejectsAt Entry.number document entries
      (compile (settings.treating .reject) document protos) := by
  have hnamed : Table.ofEntries .name .reject entries = .ok (Table.lastWins .name entries) :=
    Table.ofEntries_eq_ok.mpr ⟨fun _ => hn, rfl⟩
  have hkeys := mt (keys_code_nodup_iff entries).mp hc
  refine (rejectsAt_of_ofEntries hkeys fun fault htable => ?_).of_code
  rw [compile_of_read h, hnamed, htable]

theorem nodup_of_compile_reject {generated : Generated}
    (hg : compile (settings.treating .reject) document protos = .ok generated) :
    (entries.map Entry.name).Nodup ∧ (entries.map Entry.number).Nodup := by
  have hn : (entries.map Entry.name).Nodup := by
    by_contra hn
    exact (rejectsAt_name h protos hn).ne_ok generated hg
  refine ⟨hn, ?_⟩
  by_contra hc
  exact (rejectsAt_number h protos hn hc).ne_ok generated hg

end

-- Whether duplicates are rejected or the last one wins, a run fails in the same way on
-- declarations that cannot be read and generates the same from declarations without duplicates.
-- On others only rejecting fails, at the first entry that repeats a name or else a number.
theorem treatments_agree (settings : Settings) (document : Document) (protos : List Proto.File) :
    let rejecting := compile (settings.treating .reject) document protos
    let lasting := compile (settings.treating .lastWins) document protos
    (∀ failure, lasting = .error failure → rejecting = .error failure) ∧
    ∀ generated, lasting = .ok generated →
      ∃ entries, readDeclarations settings document = .ok entries ∧
        ((∃ same, rejecting = .ok same) ↔
          (entries.map Entry.name).Nodup ∧ (entries.map Entry.number).Nodup) ∧
        (∀ same, rejecting = .ok same → same = generated) ∧
        (¬ (entries.map Entry.name).Nodup → RejectsAt Entry.name document entries rejecting) ∧
        ((entries.map Entry.name).Nodup → ¬ (entries.map Entry.number).Nodup →
          RejectsAt Entry.number document entries rejecting) := by
  intro rejecting lasting
  cases hread : readDeclarations settings document with
  | error failure =>
      have hlasting : lasting = .error failure := compile_of_unread hread .lastWins
      have hrejecting : rejecting = .error failure := compile_of_unread hread .reject
      rw [hlasting, hrejecting]
      exact ⟨fun _ h => h, nofun⟩
  | ok entries =>
      have hlasting : lasting = .ok (generatedOf settings protos entries) :=
        compile_lastWins hread protos
      have haccepts := compile_reject_of_nodup hread protos
      have hdistinct {same : Generated} (hsame : rejecting = .ok same) :=
        nodup_of_compile_reject hread protos hsame
      rw [hlasting]
      refine ⟨nofun, fun generated hgenerated => ?_⟩
      obtain rfl := Except.ok.inj hgenerated
      refine ⟨entries, rfl, ⟨?_, ?_⟩, ?_, rejectsAt_name hread protos,
        rejectsAt_number hread protos⟩
      · rintro ⟨same, hsame⟩
        exact hdistinct hsame
      · rintro ⟨hn, hc⟩
        exact ⟨_, haccepts hn hc⟩
      · intro same hsame
        obtain ⟨hn, hc⟩ := hdistinct hsame
        exact Except.ok.inj (hsame.symm.trans (haccepts hn hc))

-- Two spellings of one code
def repeatedCode : Document :=
  ⟨"proto.d.ts", "enum ResponseCodeEnum \x7b\nOK = 8,\nBUSY = 010\n\x7d"⟩

def spelledDecimal : Entry := ⟨"OK", "8", 8, ⟨⟨24, 1, 0⟩, ⟨31, 1, 7⟩⟩⟩

def spelledOctal : Entry := ⟨"BUSY", "010", 8, ⟨⟨32, 2, 0⟩, ⟨42, 2, 10⟩⟩⟩

theorem readDeclarations_repeatedCode :
    readDeclarations {} repeatedCode = .ok [spelledDecimal, spelledOctal] := by
  rfl

theorem treatments_part_for_repeated_code :
    (∃ generated, compile (Settings.treating {} .lastWins) repeatedCode [emptySource]
      = .ok generated) ∧
    ∃ failure, compile (Settings.treating {} .reject) repeatedCode [emptySource]
        = .error failure ∧
      IsDuplicateFailure repeatedCode spelledOctal spelledDecimal failure := by
  have hlasting : compile (Settings.treating {} .lastWins) repeatedCode [emptySource]
      = .ok (generatedOf {} [emptySource] _) :=
    compile_of_read readDeclarations_repeatedCode .lastWins
  refine ⟨⟨_, hlasting⟩, ?_⟩
  obtain ⟨-, hagree⟩ := treatments_agree {} repeatedCode [emptySource]
  obtain ⟨entries, hread, -, -, -, hcodes⟩ := hagree _ hlasting
  obtain rfl := Except.ok.inj (readDeclarations_repeatedCode.symm.trans hread)
  obtain ⟨entry, first, failure, ⟨front, behind, hsplit, -, hm, -⟩, hfailure⟩ :=
    hcodes (by decide) (by decide)
  -- only the second entry has one in front
  cases front with
  | nil => simp at hm
  | cons head tail =>
      obtain ⟨rfl, hrest⟩ := List.cons.inj hsplit
      cases tail with
      | nil =>
          obtain ⟨rfl, -⟩ := List.cons.inj hrest
          obtain rfl := List.mem_singleton.mp hm
          exact ⟨failure, hfailure⟩
      | cons next more => simp at hrest

end Codebook
