import Codebook.Declarations.Table
import Codebook.Proofs.Dictionary
import Codebook.Proofs.Number.Decimal

namespace Codebook.Declarations

-- The keys of a column, in the order of the entries
def keys (column : Column) (entries : List Entry) : List String :=
  entries.map fun entry => entry.key column

theorem lookup_eq_none_iff (key : String) (seen : List (String × Entry)) :
    seen.lookup key = none ↔ key ∉ seen.map Prod.fst := by
  induction seen with
  | nil => simp
  | cons pair rest ih =>
      obtain ⟨k, entry⟩ := pair
      rw [List.lookup_cons]
      split
      · rename_i h
        simp [beq_iff_eq.mp h]
      · rename_i h
        simp [ih, beq_eq_false_iff_ne.mp h]

theorem lookup_keyed_concat (column : Column) (front : List Entry) (entry : Entry) (key : String) :
    (keyed column (front ++ [entry])).lookup key
      = ((keyed column front).lookup key).or
        (if key = entry.key column then some entry else none) := by
  rw [keyed, List.map_append, List.lookup_append]
  by_cases hk : key = entry.key column
  · simp [keyed, hk]
  · simp [keyed, List.lookup_cons, beq_eq_false_iff_ne.mpr hk, hk]

-- No entry repeats a key when all keys are distinct, also from those in front.
theorem repeatsBehind_eq_nil_iff (seen entries : List (String × Entry)) :
    repeatsBehind seen entries = [] ↔
      (entries.map Prod.fst).Nodup ∧ ∀ key ∈ entries.map Prod.fst, key ∉ seen.map Prod.fst := by
  induction entries generalizing seen with
  | nil => simp [repeatsBehind]
  | cons pair rest ih =>
      obtain ⟨key, entry⟩ := pair
      have hrest := ih (seen ++ [(key, entry)])
      have hlookup := lookup_eq_none_iff key seen
      simp only [repeatsBehind]
      split
      · rename_i first hfirst
        have hm : key ∈ seen.map Prod.fst := by
          by_contra hn
          simp [hlookup.mpr hn] at hfirst
        simp only [reduceCtorEq, false_iff, not_and]
        intro _ hall
        exact hall key (by simp) hm
      · rename_i hnone
        have hn := hlookup.mp hnone
        rw [hrest]
        have hseen (k : String) : k ∉ (seen ++ [(key, entry)]).map Prod.fst ↔
            k ∉ seen.map Prod.fst ∧ k ≠ key := by simp
        simp only [hseen, List.map_cons, List.nodup_cons, List.forall_mem_cons]
        constructor
        · rintro ⟨hnodup, hall⟩
          exact ⟨⟨fun hm => (hall key hm).2 rfl, hnodup⟩, hn, fun k hk => (hall k hk).1⟩
        · rintro ⟨⟨hkey, hnodup⟩, -, hall⟩
          exact ⟨hnodup, fun k hk => ⟨hall k hk, fun he => hkey (he ▸ hk)⟩⟩

theorem repeats_eq_nil_iff (column : Column) (entries : List Entry) :
    repeats column entries = [] ↔ (keys column entries).Nodup := by
  rw [repeats, repeatsBehind_eq_nil_iff]
  simp [keyed, keys, Function.comp_def]

-- An entry whose key came before while no key in front of it came twice, and the entry in front
-- that has its key
def IsFirstRepeat {κ : Type} (key : Entry → κ) (entries : List Entry) (entry first : Entry) :
    Prop :=
  ∃ front behind, entries = front ++ entry :: behind ∧ (front.map key).Nodup ∧
    first ∈ front ∧ key first = key entry

theorem exists_of_repeatsBehind_eq_cons {seen entries : List (String × Entry)}
    {entry first : Entry} {more : List (Entry × Entry)} (hn : (seen.map Prod.fst).Nodup)
    (h : repeatsBehind seen entries = (entry, first) :: more) :
    ∃ front key behind, entries = front ++ (key, entry) :: behind ∧
      ((seen ++ front).map Prod.fst).Nodup ∧ (key, first) ∈ seen ++ front := by
  induction entries generalizing seen with
  | nil => simp [repeatsBehind] at h
  | cons pair rest ih =>
      obtain ⟨key, next⟩ := pair
      simp only [repeatsBehind] at h
      split at h
      · rename_i found hfound
        obtain ⟨hpair, -⟩ := List.cons.inj h
        obtain ⟨rfl, rfl⟩ := Prod.mk.inj hpair
        obtain ⟨before, between, hseen, -⟩ := List.lookup_eq_some_iff.mp hfound
        exact ⟨[], key, rest, rfl, by simpa using hn, by simp [hseen]⟩
      · rename_i hnone
        have hkey := (lookup_eq_none_iff key seen).mp hnone
        have hnext : ((seen ++ [(key, next)]).map Prod.fst).Nodup := by
          rw [List.map_append, List.nodup_append]
          refine ⟨hn, by simp, fun k hk other ho he => hkey ?_⟩
          obtain rfl : other = key := by simpa using ho
          exact he ▸ hk
        obtain ⟨front, k, behind, rfl, hnodup, hm⟩ := ih hnext h
        rw [List.append_assoc, List.singleton_append] at hnodup hm
        exact ⟨(key, next) :: front, k, behind, rfl, hnodup, hm⟩

theorem isFirstRepeat_of_repeats {column : Column} {entries : List Entry} {entry first : Entry}
    {more : List (Entry × Entry)} (h : repeats column entries = (entry, first) :: more) :
    IsFirstRepeat (Entry.key column) entries entry first := by
  have hnone : (([] : List (String × Entry)).map Prod.fst).Nodup := List.nodup_nil
  obtain ⟨front, key, behind, hentries, hn, hm⟩ := exists_of_repeatsBehind_eq_cons hnone h
  rw [List.nil_append] at hn hm
  obtain ⟨before, tail, rfl, rfl, htail⟩ := List.map_eq_append_iff.mp hentries
  obtain ⟨next, rest, rfl, hnext, rfl⟩ := List.map_eq_cons_iff.mp htail
  obtain ⟨rfl, rfl⟩ := Prod.mk.inj hnext
  obtain ⟨found, hfound, hpair⟩ := List.mem_map.mp hm
  obtain ⟨hkey, rfl⟩ := Prod.mk.inj hpair
  exact ⟨before, rest, rfl, by simpa [Function.comp_def] using hn, hfound, hkey⟩

-- The last entry with its key
def IsLast (column : Column) (entries : List Entry) (entry : Entry) : Prop :=
  ∃ front behind, entries = front ++ entry :: behind ∧ entry.key column ∉ keys column behind

theorem IsLast.mem {column : Column} {entries : List Entry} {entry : Entry}
    (h : IsLast column entries entry) : entry ∈ entries := by
  obtain ⟨front, behind, rfl, -⟩ := h
  simp

-- A value that entries have beside their key is looked up at the last entry with the key.
theorem exists_isLast_iff {α : Type} (column : Column) (entries : List Entry)
    (value : Entry → α) (key : String) (a : α) :
    (∃ entry, IsLast column entries entry ∧ entry.key column = key ∧ value entry = a) ↔
      ∃ front behind, entries.map (fun entry => (entry.key column, value entry))
        = front ++ (key, a) :: behind ∧ key ∉ behind.map Prod.fst := by
  constructor
  · rintro ⟨entry, ⟨front, behind, rfl, hn⟩, rfl, rfl⟩
    exact ⟨_, _, List.map_append, by simpa [keys, Function.comp_def] using hn⟩
  · rintro ⟨front, behind, he, hn⟩
    obtain ⟨front, tail, rfl, rfl, htail⟩ := List.map_eq_append_iff.mp he
    obtain ⟨entry, behind, rfl, hentry, rfl⟩ := List.map_eq_cons_iff.mp htail
    obtain ⟨rfl, rfl⟩ := Prod.mk.inj hentry
    exact ⟨entry, ⟨front, behind, rfl, by simpa [keys, Function.comp_def] using hn⟩, rfl, rfl⟩

theorem IsLast.of_behind {column : Column} {behind : List Entry} {last : Entry}
    (h : IsLast column behind last) (front : List Entry) (entry : Entry) :
    IsLast column (front ++ entry :: behind) last := by
  obtain ⟨middle, rest, rfl, hn⟩ := h
  exact ⟨front ++ entry :: middle, rest, by simp, hn⟩

-- Every key has a last entry.
theorem exists_isLast {column : Column} {entries : List Entry} {key : String}
    (h : key ∈ keys column entries) :
    ∃ entry, IsLast column entries entry ∧ entry.key column = key := by
  induction entries with
  | nil => simp [keys] at h
  | cons first rest ih =>
      by_cases hrest : key ∈ keys column rest
      · obtain ⟨entry, hl, hkey⟩ := ih hrest
        exact ⟨entry, hl.of_behind [] first, hkey⟩
      · have hfirst : first.key column = key := by
          rcases List.mem_cons.mp h with hk | hk
          · exact hk.symm
          · exact absurd hk hrest
        exact ⟨first, ⟨[], rest, rfl, hfirst ▸ hrest⟩, hfirst⟩

theorem isLast_unique {column : Column} {entries : List Entry} {a b : Entry}
    (ha : IsLast column entries a) (hb : IsLast column entries b)
    (h : a.key column = b.key column) : a = b := by
  have hlookup (entry : Entry) (hl : IsLast column entries entry) :
      Dictionary.lookup (entry.key column)
        (entries.map fun entry => (entry.key column, entry)).reverse = some entry := by
    rw [Dictionary.lookup_reverse_eq_some_iff]
    exact (exists_isLast_iff column entries id (entry.key column) entry).mp ⟨entry, hl, rfl, rfl⟩
  have hsame := hlookup a ha
  rw [h, hlookup b hb] at hsame
  exact (Option.some.inj hsame).symm

theorem isLast_of_nodup {column : Column} {entries : List Entry}
    (hn : (keys column entries).Nodup) {entry : Entry} (hm : entry ∈ entries) :
    IsLast column entries entry := by
  obtain ⟨front, behind, rfl⟩ := List.append_of_mem hm
  refine ⟨front, behind, rfl, ?_⟩
  simp only [keys, List.map_append, List.map_cons] at hn
  exact (List.nodup_cons.mp (List.nodup_append.mp hn).2.1).1

-- The table in which the last entry with a key gives its name
def Table.lastWins (column : Column) (entries : List Entry) : Table :=
  ⟨column, Dictionary.ofList ((keyed column entries).map fun (key, entry) => (key, entry.name))⟩

-- What is made behind some entries: the table in which the last of them wins, and for each key the
-- span of the first of them.
structure Tabling.Follows (column : Column) (front : List Entry) (made : Tabling) : Prop where
  names : made.names = (Table.lastWins column front).names
  firsts : ∀ key, made.firsts.get? key = ((keyed column front).lookup key).map Entry.span

namespace Tabling

variable {column : Column} {front : List Entry} {made : Tabling}

theorem follows_nil : Follows column [] {} := ⟨rfl, fun _ => rfl⟩

theorem Follows.put (h : made.Follows column front) (entry : Entry) :
    made.names.put (entry.key column) entry.name
      = (Table.lastWins column (front ++ [entry])).names := by
  simp [h.names, Table.lastWins, keyed, Dictionary.ofList]

-- What one further entry does. Only the first entry of a key gives its span.
theorem Follows.add_of_none (h : made.Follows column front) {entry : Entry}
    (hn : (keyed column front).lookup (entry.key column) = none) (duplicates : Duplicates) :
    ∃ next, made.add column duplicates entry = .ok next ∧
      next.Follows column (front ++ [entry]) := by
  have hfirst : made.firsts.get? (entry.key column) = none := by
    rw [h.firsts, hn, Option.map_none]
  refine ⟨_, by rw [add, hfirst], h.put entry, fun key => ?_⟩
  rw [Dictionary.get?_put, lookup_keyed_concat, h.firsts]
  by_cases hk : key = entry.key column
  · subst hk
    simp [hn]
  · simp [hk]

theorem Follows.add_of_some (h : made.Follows column front) {entry first : Entry}
    (hs : (keyed column front).lookup (entry.key column) = some first) :
    made.add column .reject entry = .error ⟨entry.key column, entry.span, first.span⟩ ∧
      ∃ next, made.add column .lastWins entry = .ok next ∧
        next.Follows column (front ++ [entry]) := by
  have hfirst : made.firsts.get? (entry.key column) = some first.span := by
    rw [h.firsts, hs, Option.map_some]
  refine ⟨by rw [add, hfirst], _, by rw [add, hfirst], h.put entry, fun key => ?_⟩
  rw [lookup_keyed_concat, h.firsts]
  by_cases hk : key = entry.key column
  · subst hk
    simp [hs]
  · simp [hk]

-- All further entries are added, or the first repeat among them is at fault.
theorem Follows.run (h : made.Follows column front) (entries : List Entry) :
    (∃ last, entries.foldlM (add column .lastWins) made = .ok last ∧
      last.Follows column (front ++ entries)) ∧
    match repeatsBehind (keyed column front) (keyed column entries) with
    | [] => ∃ last, entries.foldlM (add column .reject) made = .ok last ∧
        last.Follows column (front ++ entries)
    | (entry, first) :: _ => entries.foldlM (add column .reject) made
        = .error ⟨entry.key column, entry.span, first.span⟩ := by
  induction entries generalizing front made with
  | nil =>
      rw [List.append_nil]
      exact ⟨⟨made, rfl, h⟩, made, rfl, h⟩
  | cons entry rest ih =>
      have hkeyed : keyed column (entry :: rest)
          = (entry.key column, entry) :: keyed column rest := rfl
      have hfront : keyed column (front ++ [entry])
          = keyed column front ++ [(entry.key column, entry)] := List.map_append
      rw [hkeyed, repeatsBehind, ← hfront, List.foldlM_cons, List.foldlM_cons,
        List.append_cons]
      cases hlookup : (keyed column front).lookup (entry.key column) with
      | none =>
          obtain ⟨next, hadd, hnext⟩ := h.add_of_none hlookup .lastWins
          obtain ⟨other, hother, hnext'⟩ := h.add_of_none hlookup .reject
          rw [hadd, hother]
          exact ⟨(ih hnext).1, (ih hnext').2⟩
      | some first =>
          obtain ⟨hreject, next, hadd, hnext⟩ := h.add_of_some hlookup
          rw [hadd, hreject]
          exact ⟨(ih hnext).1, rfl⟩

end Tabling

namespace Table

-- The same table by the repeats of the column
def ofRepeats (column : Column) (duplicates : Duplicates) (entries : List Entry) :
    Except TableFault Table :=
  match duplicates with
  | .lastWins => .ok (lastWins column entries)
  | .reject =>
    match repeats column entries with
    | [] => .ok (lastWins column entries)
    | (entry, first) :: _ => .error ⟨entry.key column, entry.span, first.span⟩

theorem ofEntries_eq_ofRepeats (column : Column) (duplicates : Duplicates)
    (entries : List Entry) :
    ofEntries column duplicates entries = ofRepeats column duplicates entries := by
  have hnil : Tabling.Follows column [] {} := Tabling.follows_nil
  obtain ⟨⟨last, hwins, hlast⟩, hrejects⟩ := hnil.run entries
  have htable {last : Tabling} (hlast : last.Follows column ([] ++ entries)) :
      (⟨column, last.names⟩ : Table) = lastWins column entries := by
    rw [hlast.names]
    rfl
  cases duplicates with
  | lastWins =>
      rw [ofEntries, hwins, ofRepeats, ← htable hlast]
      rfl
  | reject =>
      rw [ofEntries, ofRepeats, repeats]
      cases hrepeats : repeatsBehind [] (keyed column entries) with
      | nil =>
          obtain ⟨last, hrun, hlast⟩ := hrepeats ▸ hrejects
          rw [hrun, ← htable hlast]
          rfl
      | cons found more =>
          have hrun := hrepeats ▸ hrejects
          rw [hrun]
          rfl

-- Where a table can be made at all, the last entry with a key gives its name.
theorem ofEntries_eq_ok {column : Column} {duplicates : Duplicates} {entries : List Entry}
    {table : Table} :
    ofEntries column duplicates entries = .ok table ↔
      (duplicates = .reject → (keys column entries).Nodup) ∧ table = lastWins column entries := by
  rw [ofEntries_eq_ofRepeats]
  cases duplicates with
  | lastWins => simp [ofRepeats, eq_comm]
  | reject =>
      have hrepeats := repeats_eq_nil_iff column entries
      simp only [ofRepeats]
      split
      · rename_i hnone
        simp [hrepeats.mp hnone, eq_comm]
      · rename_i entry first rest hsome
        have hn : ¬ (keys column entries).Nodup := fun hn => by
          simp [hrepeats.mpr hn] at hsome
        simp [hn]

theorem ofEntries_lastWins (column : Column) (entries : List Entry) :
    ofEntries column .lastWins entries = .ok (lastWins column entries) :=
  ofEntries_eq_ok.mpr ⟨nofun, rfl⟩

theorem ofEntries_eq_error {column : Column} {entries : List Entry}
    (h : ¬ (keys column entries).Nodup) :
    ∃ entry first, IsFirstRepeat (Entry.key column) entries entry first ∧
      ofEntries column .reject entries = .error ⟨entry.key column, entry.span, first.span⟩ := by
  cases hr : repeats column entries with
  | nil => exact absurd ((repeats_eq_nil_iff column entries).mp hr) h
  | cons found more =>
      obtain ⟨entry, first⟩ := found
      refine ⟨entry, first, isFirstRepeat_of_repeats hr, ?_⟩
      simp only [ofEntries_eq_ofRepeats, ofRepeats, hr]

theorem names_lastWins (column : Column) (entries : List Entry) :
    (lastWins column entries).names
      = .ofList (entries.map fun entry => (entry.key column, entry.name)) := by
  simp [lastWins, keyed, Function.comp_def]

theorem mem_pairs_lastWins (column : Column) (entries : List Entry) (key name : String) :
    (key, name) ∈ (lastWins column entries).names.pairs ↔
      ∃ entry, IsLast column entries entry ∧ entry.key column = key ∧ entry.name = name := by
  rw [names_lastWins, Dictionary.mem_pairs_ofList, Dictionary.lookup_reverse_eq_some_iff,
    ← exists_isLast_iff]

theorem get?_lastWins (column : Column) (entries : List Entry) (key name : String) :
    (lastWins column entries).names.get? key = some name ↔
      ∃ entry, IsLast column entries entry ∧ entry.key column = key ∧ entry.name = name := by
  have hn : (lastWins column entries).names.keys.Nodup := Dictionary.keys_nodup_ofList _
  rw [Dictionary.get?, Dictionary.lookup_eq_some_iff hn]
  exact mem_pairs_lastWins column entries key name

-- A table of entries holds their distinct keys in the order in which they came first, each with the
-- name of the last entry that has it.
structure IsOf (column : Column) (entries : List Entry) (table : Table) : Prop where
  column_eq : table.column = column
  keys_eq : table.names.keys = (keys column entries).eraseDups
  mem_pairs : ∀ key name, (key, name) ∈ table.names.pairs ↔
    ∃ entry, IsLast column entries entry ∧ entry.key column = key ∧ entry.name = name

theorem isOf_lastWins (column : Column) (entries : List Entry) :
    (lastWins column entries).IsOf column entries where
  column_eq := rfl
  keys_eq := by
    rw [names_lastWins, Dictionary.keys_ofList, List.map_map]
    rfl
  mem_pairs := mem_pairs_lastWins column entries

end Table

-- Codes are compared by value.
theorem key_code_eq_iff (a b : Entry) : a.key .code = b.key .code ↔ a.number = b.number := by
  constructor
  · intro h
    exact Number.toString_inj h
  · intro h
    exact congrArg toString h

-- Where the last entry wins there is always a table, and where repeats are rejected there is the
-- same table as long as no key comes again. Else the first key that does is at fault.
theorem table_of_entries (column : Column) (entries : List Entry) :
    (∃ table, Table.ofEntries column .lastWins entries = .ok table ∧
      table.IsOf column entries ∧
      ((keys column entries).Nodup ∧ Table.ofEntries column .reject entries = .ok table ∨
        ¬ (keys column entries).Nodup ∧ ∃ entry first fault,
          IsFirstRepeat (Entry.key column) entries entry first ∧
          Table.ofEntries column .reject entries = .error fault ∧
          fault.diagnostic.kind = .duplicateKey ∧ fault.diagnostic.span = entry.span ∧
          fault.diagnostic.related = some first.span)) ∧
    ∀ a b : Entry, a.key .code = b.key .code ↔ a.number = b.number := by
  refine ⟨⟨_, Table.ofEntries_lastWins column entries, Table.isOf_lastWins column entries, ?_⟩,
    key_code_eq_iff⟩
  by_cases hn : (keys column entries).Nodup
  · exact .inl ⟨hn, Table.ofEntries_eq_ok.mpr ⟨fun _ => hn, rfl⟩⟩
  · obtain ⟨entry, first, hrepeat, hfault⟩ := Table.ofEntries_eq_error hn
    exact .inr ⟨hn, entry, first, _, hrepeat, hfault, rfl, rfl, rfl⟩

-- A code in another spelling takes the place of the name and leaves the key where it was.
example : (Table.lastWins .code [⟨"A", "1", 1, {}⟩, ⟨"B", "-2", -2, {}⟩,
    ⟨"C", "0x1", 1, {}⟩]).names.pairs = [("1", "C"), ("-2", "B")] := by decide

end Codebook.Declarations
