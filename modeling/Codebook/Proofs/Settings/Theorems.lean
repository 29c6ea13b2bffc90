import Codebook.Proofs.Settings.Refused
import Codebook.Proofs.Result

namespace Codebook.Settings

-- Every value of a setting has a JSON text.

theorem exists_isHex {value : Nat} (h : value < 0x10000) : ∃ digits, IsHex digits value := by
  have hdigit (n : Nat) : IsHexDigit (Nat.digitChar (n % 16)) (n % 16) :=
    ⟨Nat.mod_lt n (by decide), .inl rfl⟩
  have hfour := IsHex.four (hdigit (value / 4096)) (hdigit (value / 256)) (hdigit (value / 16))
    (hdigit value)
  have hvalue : (((value / 4096 % 16) * 16 + value / 256 % 16) * 16 + value / 16 % 16) * 16
      + value % 16 = value := by
    omega
  exact ⟨_, hvalue ▸ hfour⟩

theorem exists_spells (c : Char) : ∃ text, Spells c text := by
  by_cases hlow : c.toNat < 0x20
  · obtain ⟨digits, h⟩ := exists_isHex (show c.toNat < 0x10000 by omega)
    exact ⟨_, .code h⟩
  · by_cases hq : c = '"'
    · exact ⟨_, .mark (m := '"') (by simp [marks, hq])⟩
    · by_cases hb : c = '\\'
      · exact ⟨_, .mark (m := '\\') (by simp [marks, hb])⟩
      · exact ⟨_, .plain (by omega) hq hb⟩

theorem exists_isString (value : String) : ∃ text, IsString value text := by
  have hinside (value : List Char) : ∃ inside, SpellsAll value inside := by
    induction value with
    | nil => exact ⟨[], .nil⟩
    | cons c rest ih =>
        obtain ⟨text, hc⟩ := exists_spells c
        obtain ⟨more, hrest⟩ := ih
        exact ⟨text ++ more, .cons hc hrest⟩
  obtain ⟨inside, h⟩ := hinside value.toList
  exact ⟨_, inside, h, rfl⟩

theorem isString_plain (value : List Char)
    (h : value.all fun c => 0x20 ≤ c.toNat && c != '"' && c != '\\') :
    IsString (String.ofList value) ('"' :: (value ++ ['"'])) := by
  refine ⟨value, ?_, rfl⟩
  rw [String.toList_ofList]
  induction value with
  | nil => exact .nil
  | cons c rest ih =>
      simp only [List.all_cons, Bool.and_eq_true, decide_eq_true_eq, bne_iff_ne] at h
      obtain ⟨⟨⟨hc, hq⟩, hb⟩, hrest⟩ := h
      exact .cons (.plain hc hq hb) (ih hrest)

theorem exists_isValueOf (given : Settings) (field : Field) :
    ∃ value, IsValueOf given field value := by
  cases field with
  | license => exact ⟨_, rfl⟩
  | protoFolder | declarations | output | target | names | duplicates => exact exists_isString _

theorem IsValueOf.isJson {given : Settings} {field : Field} {value : List Char}
    (h : IsValueOf given field value) : IsJson value := by
  cases field with
  | license =>
      obtain rfl := h
      cases given.license with
      | true => exact .yes
      | false => exact .no
  | protoFolder | declarations | output | target | names | duplicates => exact .string h

-- A document that is an object

theorem gives_settings {inside rest : List Char} {read : Settings}
    (h : Gives (Reader.members {} Field.all true) (inside ++ '\x7d' :: rest)
      (.ok (read, '\x7d' :: rest))) {front : List Char} (hf : AreBlanks front) :
    Gives Reader.settings (front ++ '\x7b' :: (inside ++ '\x7d' :: rest)) (.ok (read, rest)) :=
  (gives_next_cons hf rfl _).bind ((gives_skip '\x7b' _).bind
    (h.bind ((gives_skip '\x7d' rest).bind (gives_pure read rest))))

theorem gives_document {inside behind : List Char} {read : Settings}
    (h : Gives (Reader.members {} Field.all true) (inside ++ '\x7d' :: behind)
      (.ok (read, '\x7d' :: behind))) {front : List Char} (hf : AreBlanks front)
    (hb : AreBlanks behind) :
    Gives Reader.document (front ++ '\x7b' :: (inside ++ '\x7d' :: behind)) (.ok (read, [])) := by
  have hnone : ∀ c ∈ ([] : List Char).head?, Reader.isJsonBlank c = false := by simp
  have hend : Gives Reader.next behind (.ok (none, [])) := by
    simpa using gives_next hb hnone
  exact (gives_settings h hf).bind (hend.bind (gives_pure read []))

theorem ofJson_of_gives {text : String} {read : Settings} {rest : List Char}
    (h : Gives Reader.document text.toList (.ok (read, rest))) : ofJson text = .ok read := by
  have hrun := h 0
  unfold ofJson
  cases hd : Reader.document.run ⟨text.toList, 0⟩ with
  | error fault => simp [hd, unplaced] at hrun
  | ok result =>
      rw [hd] at hrun
      obtain ⟨rfl, -⟩ := Prod.mk.inj (Except.ok.inj hrun)
      rfl

theorem mayGive_of_ofJson {text : String} {read : Settings} (h : ofJson text = .ok read) :
    ∃ rest, MayGive Reader.document text.toList read rest := by
  unfold ofJson at h
  cases hd : Reader.document.run ⟨text.toList, 0⟩ with
  | error fault => simp [hd, Except.map] at h
  | ok result =>
      rw [hd] at h
      obtain rfl := Except.ok.inj h
      exact ⟨result.2.rest, 0, by rw [hd]; rfl⟩

-- A document that is read has different keys of fields.
theorem keys_of_ofJson {members : List (String × List Char)} {object : List Char} {text : String}
    {read : Settings} (ho : IsObject members object) (hd : IsDocument object text.toList)
    (hj : ∀ member ∈ members, IsJson member.2) (h : ofJson text = .ok read) :
    (members.map Prod.fst).Nodup ∧ ∀ key ∈ members.map Prod.fst, ∃ field : Field,
      field.key = key := by
  obtain ⟨front, behind, hf, hb, htext⟩ := hd
  obtain ⟨inside, rfl, hinside⟩ := ho
  obtain ⟨rest, h⟩ := mayGive_of_ofJson h
  rcases hinside with ⟨rfl, -⟩ | hmembers
  · simp
  · rw [htext, List.cons_append, List.append_assoc] at h
    obtain ⟨settings, between, hsettings, -⟩ := h.of_bind
    have hopened := (hsettings.behind (gives_next_cons hf rfl _)).behind (gives_skip '\x7b' _)
    obtain ⟨last, left, hlast, -⟩ := hopened.of_bind
    have hfirst (blanks : List Char) (hblanks : AreBlanks blanks) : Leads true ([] ++ blanks) :=
      .first hblanks
    obtain ⟨hnodup, hkeys⟩ := keys_of_mayGive hmembers hj (by decide) hfirst hlast
    exact ⟨hnodup, fun key hkey => (hkeys key hkey).imp fun _ => And.right⟩

-- An object that gives values to some fields is read as them and the defaults of the others, in
-- whatever order and however it is written. An object with another key, or with a key twice, is
-- refused.
theorem ofJson_given (given : Settings) :
    (∀ field, ∃ value, IsValueOf given field value) ∧
    (∀ field value, IsValueOf given field value → IsJson value) ∧
    (∀ (values : List (Field × List Char)) (object : List Char) (text : String),
      (values.map Prod.fst).Nodup →
      (∀ field value, (field, value) ∈ values → IsValueOf given field value) →
      IsObject (membersOf values) object → IsDocument object text.toList →
      ofJson text = .ok (given.only (values.map Prod.fst))) ∧
    ∀ (members : List (String × List Char)) (object : List Char) (text : String),
      (∀ member ∈ members, IsJson member.2) →
      IsObject members object → IsDocument object text.toList →
      (∃ key ∈ members.map Prod.fst, ∀ field : Field, field.key ≠ key) ∨
        ¬ (members.map Prod.fst).Nodup →
      ∃ fault, ofJson text = .error fault := by
  refine ⟨exists_isValueOf given, fun _ _ => IsValueOf.isJson, ?_, ?_⟩
  · intro values object text hd hv ho htext
    obtain ⟨front, behind, hf, hb, htext⟩ := htext
    obtain ⟨inside, rfl, hinside⟩ := ho
    suffices hgives : Gives Reader.document text.toList
        (.ok (given.only (values.map Prod.fst), [])) from ofJson_of_gives hgives
    rw [htext, List.cons_append, List.append_assoc]
    refine gives_document ?_ hf hb
    have hdefaults : given.only [] = {} := by simp [only, only.defaults]
    rcases hinside with ⟨hnil, hblanks⟩ | hmembers
    · obtain rfl : values = [] := List.map_eq_nil_iff.mp hnil
      exact hdefaults ▸ gives_members_end _ _ true hblanks behind
    · have hall : ∀ field ∈ values.map Prod.fst, field ∈ Field.all :=
        fun field _ => by cases field <;> decide
      have hfirst (blanks : List Char) (hblanks : AreBlanks blanks) : Leads true ([] ++ blanks) :=
        .first hblanks
      exact hdefaults ▸ gives_members hmembers hv hd hall hfirst behind
  · intro members object text hj ho htext hkeys
    cases hread : ofJson text with
    | error fault => exact ⟨fault, rfl⟩
    | ok read =>
        obtain ⟨hnodup, hknown⟩ := keys_of_ofJson ho htext hj hread
        rcases hkeys with ⟨key, hkey, hother⟩ | hagain
        · obtain ⟨field, hfield⟩ := hknown key hkey
          exact absurd hfield (hother field)
        · exact absurd hnodup hagain

-- Settings whose output has a character of two surrogates and an escaped slash, given in another
-- order, and with the output given a second time
def requestSettings : Settings := { output := "😀/A", target := .requestType, license := false }

def escapedOutput : String := "\"\\ud83D\\ude00\\/A\""

theorem isString_escapedOutput : IsString "😀/A" escapedOutput.toList := by
  have hhigh : IsHex ['d', '8', '3', 'D'] 0xd83d :=
    .four (w := 13) (x := 8) (y := 3) (z := 13) ⟨by decide, .inl rfl⟩ ⟨by decide, .inl rfl⟩
      ⟨by decide, .inl rfl⟩ ⟨by decide, .inr rfl⟩
  have hlow : IsHex ['d', 'e', '0', '0'] 0xde00 :=
    .four (w := 13) (x := 14) (y := 0) (z := 0) ⟨by decide, .inl rfl⟩ ⟨by decide, .inl rfl⟩
      ⟨by decide, .inl rfl⟩ ⟨by decide, .inl rfl⟩
  have hface : Spells '😀' "\\ud83D\\ude00".toList :=
    .pair hhigh hlow (by decide) (by decide) (by decide)
  have hslash : Spells '/' ['\\', '/'] := .mark (by decide)
  have hletter : Spells 'A' ['A'] := .plain (by decide) (by decide) (by decide)
  exact ⟨_, .cons hface (.cons hslash (.cons hletter .nil)), rfl⟩

theorem isString_requestType : IsString "request-type" "\"request-type\"".toList :=
  isString_plain "request-type".toList (by decide)

def targetMember : String := "\n\"target\"\t: \"request-type\" "

def outputMember : String := " \"output\":" ++ escapedOutput

theorem isMember_target :
    IsMember "target" "\"request-type\"".toList targetMember.toList :=
  ⟨['\n'], "\"target\"".toList, ['\t'], [' '], [' '], by decide,
    isString_plain "target".toList (by decide), by decide, by decide, by decide, rfl⟩

theorem isMember_output : IsMember "output" escapedOutput.toList outputMember.toList :=
  ⟨[' '], "\"output\"".toList, [], [], [], by decide,
    isString_plain "output".toList (by decide), by decide, by decide, by decide, rfl⟩

theorem ofJson_given_request :
    ofJson ("\t\x7b" ++ targetMember ++ "," ++ outputMember ++ "\x7d")
        = .ok { output := "😀/A", target := .requestType } ∧
      ∃ fault, ofJson ("\x7b" ++ outputMember ++ "," ++ targetMember ++ "," ++ outputMember
        ++ "\x7d\n") = .error fault := by
  obtain ⟨-, hjson, hread, hrefused⟩ := ofJson_given requestSettings
  have htarget : IsValueOf requestSettings .target "\"request-type\"".toList :=
    isString_requestType
  have houtput : IsValueOf requestSettings .output escapedOutput.toList := isString_escapedOutput
  constructor
  · refine hread [(.target, "\"request-type\"".toList), (.output, escapedOutput.toList)] _ _
      (by decide) ?_ ⟨_, rfl, .inr (.more isMember_target (.last isMember_output))⟩
      ⟨['\t'], [], by decide, by decide, by decide +kernel⟩
    intro field value hm
    simp only [List.mem_cons, Prod.mk.injEq, List.not_mem_nil, or_false] at hm
    rcases hm with ⟨rfl, rfl⟩ | ⟨rfl, rfl⟩
    · exact htarget
    · exact houtput
  · refine hrefused [("output", escapedOutput.toList), ("target", "\"request-type\"".toList),
      ("output", escapedOutput.toList)] _ _ ?_
      ⟨_, rfl, .inr (.more isMember_output (.more isMember_target (.last isMember_output)))⟩
      ⟨[], ['\n'], by decide, by decide, by decide +kernel⟩ (.inr (by decide))
    intro member hm
    simp only [List.mem_cons, List.not_mem_nil, or_false] at hm
    rcases hm with rfl | rfl | rfl
    · exact hjson _ _ houtput
    · exact hjson _ _ htarget
    · exact hjson _ _ houtput

end Codebook.Settings
