import Codebook.Proofs.Settings.Reading

namespace Codebook.Settings

-- The members of an object are read one by one.

theorem ofKey?_key (field : Field) : Field.ofKey? field.key = some field := by
  cases field <;> decide +kernel

theorem key_of_ofKey? {key : String} {field : Field} (h : Field.ofKey? key = some field) :
    field.key = key := by
  unfold Field.ofKey? at h
  have hfound := List.find?_some h
  exact eq_of_beq hfound

-- A key with its value in front of the rest
theorem AreMembers.cases_cons {key : String} {value text : List Char}
    {members : List (String × List Char)} (h : AreMembers ((key, value) :: members) text) :
    ∃ front name behind before after more, AreBlanks front ∧ IsString key name ∧
      AreBlanks behind ∧ AreBlanks before ∧ AreBlanks after ∧
      text = front ++ (name ++ (behind ++ ':' :: (before ++ (value ++ (after ++ more))))) ∧
      (members = [] ∧ more = [] ∨ ∃ rest, more = ',' :: rest ∧ AreMembers members rest) := by
  cases h with
  | last h =>
      obtain ⟨front, name, behind, before, after, hf, hn, hb, hv, ha, rfl⟩ := h
      exact ⟨front, name, behind, before, after, [], hf, hn, hb, hv, ha, by simp, .inl ⟨rfl, rfl⟩⟩
  | @more _ _ _ rest _ h hr =>
      obtain ⟨front, name, behind, before, after, hf, hn, hb, hv, ha, rfl⟩ := h
      exact ⟨front, name, behind, before, after, ',' :: rest, hf, hn, hb, hv, ha, by simp,
        .inr ⟨rest, rfl, hr⟩⟩

theorem AreMembers.ne_nil {members : List (String × List Char)} {text : List Char}
    (h : AreMembers members text) : members ≠ [] := by
  cases h <;> simp

-- The settings as they are after the key of a member
def readKey (settings : Settings) (unread : List Field) (key : String) : Reader Settings :=
  match Field.ofKey? key with
  | none => Reader.keyFault (.unknownField key (Field.all.map Field.key))
  | some field =>
    if field ∈ unread then do
      Reader.colon
      let settings ← Reader.fieldValue settings field
      Reader.members settings (unread.erase field) false
    else Reader.keyFault (.repeatedField key)

theorem members_eq (settings : Settings) (unread : List Field) (first : Bool) :
    Reader.members settings unread first = do
      if ← Reader.hasKey first then
        Reader.skip
        readKey settings unread (← Reader.string)
      else return settings := by
  rw [Reader.members]
  rfl

theorem gives_members_end (settings : Settings) (unread : List Field) (first : Bool)
    {blanks : List Char} (hb : AreBlanks blanks) (rest : List Char) :
    Gives (Reader.members settings unread first) (blanks ++ '\x7d' :: rest)
      (.ok (settings, '\x7d' :: rest)) := by
  rw [members_eq]
  exact (gives_hasKey_end first hb rest).bind (gives_pure settings _)

theorem gives_members_key {settings : Settings} {unread : List Field} {first : Bool}
    {lead name : List Char} {key : String} (hl : Leads first lead) (hn : IsString key name)
    {rest : List Char} {result : Except Cause (Settings × List Char)}
    (h : Gives (readKey settings unread key) rest result) :
    Gives (Reader.members settings unread first) (lead ++ (name ++ rest)) result := by
  obtain ⟨inside, hinside, hname⟩ := hn.eq_cons rest
  rw [hname, members_eq]
  exact (gives_hasKey hl _).bind ((gives_skip '"' _).bind ((gives_string hinside rest).bind h))

theorem gives_readKey {settings next : Settings} {unread : List Field} {field : Field}
    {behind text rest : List Char} {result : Except Cause (Settings × List Char)}
    (hu : field ∈ unread) (hb : AreBlanks behind)
    (hv : Gives (Reader.fieldValue settings field) text (.ok (next, rest)))
    (h : Gives (Reader.members next (unread.erase field) false) rest result) :
    Gives (readKey settings unread field.key) (behind ++ ':' :: text) result := by
  rw [readKey, ofKey?_key]
  simp only [if_pos hu]
  exact (gives_colon hb text).bind (hv.bind h)

-- How the choices of settings are written

def targetName : Target → String
  | .status => "status"
  | .requestType => "request-type"

def nameStyleName : Script.NameStyle → String
  | .pascal => "pascal"
  | .raw => "raw"

def duplicatesName : Declarations.Duplicates → String
  | .reject => "reject"
  | .lastWins => "last-write-wins"

-- A text of the value that a field has in settings
def IsValueOf (given : Settings) : Field → List Char → Prop
  | .protoFolder => IsString given.protoFolder
  | .declarations => IsString given.declarations
  | .output => IsString given.output
  | .target => IsString (targetName given.target)
  | .names => IsString (nameStyleName given.names)
  | .duplicates => IsString (duplicatesName given.duplicates)
  | .license => fun text => text = (if given.license then "true" else "false").toList

-- The settings that have the given values of some fields, and the defaults of the others
def only (given : Settings) (fields : List Field) : Settings where
  protoFolder := if .protoFolder ∈ fields then given.protoFolder else defaults.protoFolder
  declarations := if .declarations ∈ fields then given.declarations else defaults.declarations
  output := if .output ∈ fields then given.output else defaults.output
  target := if .target ∈ fields then given.target else defaults.target
  names := if .names ∈ fields then given.names else defaults.names
  duplicates := if .duplicates ∈ fields then given.duplicates else defaults.duplicates
  license := if .license ∈ fields then given.license else defaults.license
where
  defaults : Settings := {}

theorem gives_fieldValue {given : Settings} {field : Field} {blanks value : List Char}
    (hb : AreBlanks blanks) (hv : IsValueOf given field value) (read : List Field)
    (rest : List Char) :
    Gives (Reader.fieldValue (given.only read) field) (blanks ++ (value ++ rest))
      (.ok (given.only (read ++ [field]), rest)) := by
  have hnext {settings : Settings} (h : settings = given.only (read ++ [field])) :
      Gives (pure settings : Reader Settings) rest
        (.ok (given.only (read ++ [field]), rest)) :=
    h ▸ gives_pure settings rest
  have htarget : targets.lookup (targetName given.target) = some given.target := by
    cases given.target <;> decide
  have hnames : nameStyles.lookup (nameStyleName given.names) = some given.names := by
    cases given.names <;> decide
  have hduplicates :
      duplicatePolicies.lookup (duplicatesName given.duplicates) = some given.duplicates := by
    cases given.duplicates <;> decide
  cases field with
  | protoFolder => exact (gives_stringValue _ hb hv rest).bind (hnext (by simp [only]))
  | declarations => exact (gives_stringValue _ hb hv rest).bind (hnext (by simp [only]))
  | output => exact (gives_stringValue _ hb hv rest).bind (hnext (by simp [only]))
  | target => exact (gives_choice hb hv htarget rest).bind (hnext (by simp [only]))
  | names => exact (gives_choice hb hv hnames rest).bind (hnext (by simp [only]))
  | duplicates => exact (gives_choice hb hv hduplicates rest).bind (hnext (by simp [only]))
  | license =>
      obtain rfl := hv
      exact (gives_boolValue hb given.license rest).bind (hnext (by simp [only]))

-- The members of an object that gives values to some fields
def membersOf (values : List (Field × List Char)) : List (String × List Char) :=
  values.map fun (field, value) => (field.key, value)

theorem gives_members {given : Settings} {values : List (Field × List Char)} {text : List Char}
    (hm : AreMembers (membersOf values) text)
    (hv : ∀ field value, (field, value) ∈ values → IsValueOf given field value)
    (hd : (values.map Prod.fst).Nodup) {read unread : List Field}
    (hu : ∀ field ∈ values.map Prod.fst, field ∈ unread) {first : Bool} {lead : List Char}
    (hl : ∀ blanks, AreBlanks blanks → Leads first (lead ++ blanks)) (rest : List Char) :
    Gives (Reader.members (given.only read) unread first) (lead ++ (text ++ '\x7d' :: rest))
      (.ok (given.only (read ++ values.map Prod.fst), '\x7d' :: rest)) := by
  induction values generalizing text read unread first lead with
  | nil => exact absurd rfl hm.ne_nil
  | cons member others ih =>
      obtain ⟨field, value⟩ := member
      obtain ⟨front, name, behind, before, after, more, hf, hn, hb, hbefore, ha, rfl, hmore⟩ :=
        AreMembers.cases_cons hm
      obtain ⟨hnot, hd⟩ := List.nodup_cons.mp hd
      have hvalue := hv field value List.mem_cons_self
      have hothers : ∀ field value, (field, value) ∈ others → IsValueOf given field value :=
        fun _ _ ho => hv _ _ (List.mem_cons_of_mem _ ho)
      have hunread : ∀ other ∈ others.map Prod.fst, other ∈ unread.erase field := by
        intro other ho
        have hne : other ≠ field := fun he => hnot (he ▸ ho)
        exact (List.mem_erase_of_ne hne).mpr (hu other (List.mem_cons_of_mem _ ho))
      have hnext : Gives (Reader.members (given.only (read ++ [field])) (unread.erase field) false)
          (after ++ (more ++ '\x7d' :: rest))
          (.ok (given.only (read ++ field :: others.map Prod.fst), '\x7d' :: rest)) := by
        rcases hmore with ⟨hnil, rfl⟩ | ⟨text, rfl, hrest⟩
        · obtain rfl : others = [] := List.map_eq_nil_iff.mp hnil
          exact gives_members_end _ _ false ha rest
        · have hlater (blanks : List Char) (hblanks : AreBlanks blanks) :
              Leads false (after ++ [','] ++ blanks) := by
            rw [List.append_assoc]
            exact .later ha hblanks
          have hgives : Gives
              (Reader.members (given.only (read ++ [field])) (unread.erase field) false)
              (after ++ [','] ++ (text ++ '\x7d' :: rest))
              (.ok (given.only (read ++ [field] ++ others.map Prod.fst), '\x7d' :: rest)) :=
            ih hrest hothers hd hunread hlater
          simpa using hgives
      have hread := gives_readKey (hu field List.mem_cons_self) hb
        (gives_fieldValue hbefore hvalue read _) hnext
      simpa using gives_members_key (hl front hf) hn hread

end Codebook.Settings
