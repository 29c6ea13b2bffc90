import Codebook.Proofs.Proto.Written.Reads

namespace Codebook.Proto

open Codebook.Text

theorem isDigit_of_core {c : Char} (h : c.isDigit) : isDigit c := by
  simp only [Char.isDigit, Bool.and_eq_true, decide_eq_true_eq] at h
  simp only [isDigit, Bool.and_eq_true, decide_eq_true_eq]
  exact h

-- A numeral has its sign as a token of its own.
theorem reads_numeral {block : OpenEnum} {name : ValueName} {n : Int} {text : List Char}
    {after : State} (hlow : Number.minInt < n) (hhigh : n ≤ Number.maxInt)
    (h : Reads (';' :: text) (.options block name n) after) :
    Reads ((toString n).toList ++ ';' :: text) (.number block name) after := by
  have hdigits (k : Nat) : ∀ d ∈ Nat.toDigits 10 k, isDigit d := fun d hd =>
    isDigit_of_core (Number.isDigit_of_mem_toDigits hd)
  have hend : inNumber ';' = false := by decide
  rw [Number.toList_toString]
  split
  · rename_i hn
    have hvalue : (n.toNat : Int) = n := Int.toNat_of_nonneg hn
    have hrange : Number.inRange n.toNat := by
      rw [hvalue, Number.inRange_iff]
      exact ⟨Int.le_of_lt hlow, hhigh⟩
    have hstep : step (.number block name)
        (Token.number (String.ofList (Nat.toDigits 10 n.toNat))).unplaced
          = .ok (.options block name n) := by
      simp [step, stepDigits, Token.isComment, Number.literal?_toDigits hrange, hvalue]
    exact Reads.number Nat.toDigits_ne_nil (hdigits _) hend hstep h
  · rename_i hn
    have hvalue : -((-n).toNat : Int) = n := by omega
    have hrange : Number.inRange (-n).toNat := by
      rw [Number.inRange_iff]
      unfold Number.minInt at hlow ⊢
      unfold Number.maxInt
      omega
    have hstep : step (.negative block name)
        (Token.number (String.ofList (Nat.toDigits 10 (-n).toNat))).unplaced
          = .ok (.options block name n) := by
      simp only [step, stepDigits, Number.literal?_toDigits hrange, if_true, hvalue]
    have hminus : Reads (Nat.toDigits 10 (-n).toNat ++ ';' :: text) (.negative block name) after :=
      Reads.number Nat.toDigits_ne_nil (hdigits _) hend hstep h
    exact Reads.symbol (by decide) rfl hminus

theorem reads_value (block : OpenEnum) {value : EnumValue} (h : value.IsWritable) :
    Reads value.text (.value block []) (.value (block.add value.unplaced) []) := by
  have hequals : " = ".toList = [' ', '=', ' '] := by decide
  have hclose : ";\n".toList = [';', '\n'] := by decide
  have hstep : step (.value block value.doc) (Token.word value.name).unplaced
      = .ok (.equals block ⟨value.name, {}, value.doc⟩) := by
    simp only [step, stepValue]
    rw [if_neg h.noKeyword]
  rw [EnumValue.text, hequals, hclose]
  simp only [List.append_assoc, List.cons_append, List.nil_append]
  refine Reads.append (Reads.docText (.value block) (fun _ => rfl) (fun _ => rfl) h.doc) ?_
  refine Reads.word h.name (by decide) hstep ?_
  refine Reads.blank (by decide) (Reads.symbol (by decide) rfl (Reads.blank (by decide) ?_))
  refine reads_numeral h.above h.below ?_
  refine Reads.symbol (by decide) rfl (Reads.blank (by decide) ?_)
  exact Reads.nil rfl

theorem foldl_add (block : OpenEnum) (values : List EnumValue) :
    values.foldl (fun read value => read.add value.unplaced) block
      = { block with values := block.values ++ values.map EnumValue.unplaced } := by
  induction values generalizing block with
  | nil => simp
  | cons value rest ih =>
      rw [List.foldl_cons, ih, List.map_cons]
      simp [OpenEnum.add]

theorem reads_values (block : OpenEnum) {values : List EnumValue}
    (h : ∀ value ∈ values, value.IsWritable) :
    Reads (values.flatMap EnumValue.text) (.value block [])
      (.value { block with values := block.values ++ values.map EnumValue.unplaced } []) := by
  have hread := Reads.flatMap (fun read => .value read []) (fun _ => rfl) block
    fun value hv read => reads_value read (h value hv)
  rwa [foldl_add] at hread

-- What the keyword of a block means does not depend on the block around it.
theorem step_message (scope : Scope) (doc : List String) :
    step (.declaration scope doc) (Token.word "message").unplaced
      = .ok (.blockName .message scope {} doc) := by
  cases scope <;> rfl

theorem step_enum (scope : Scope) (doc : List String) :
    step (.declaration scope doc) (Token.word "enum").unplaced
      = .ok (.blockName .enum scope {} doc) := by
  cases scope <;> rfl

-- A block is read when what stands in its braces is.
theorem reads_block {keyword name : String} {kind : BlockKind} {scope : Scope}
    {doc : List String} {body : List Char} {opened inside closed : State}
    (hk : IsIdentifier keyword.toList)
    (hs : step (.declaration scope doc) (Token.word keyword).unplaced
      = .ok (.blockName kind scope {} doc))
    (hn : IsIdentifier name.toList) (hd : IsDoc doc)
    (ho : step (.blockBrace kind scope {} doc name) (Token.symbol '\x7b').unplaced = .ok opened)
    (hb : Reads body opened inside)
    (hc : step inside (Token.symbol '\x7d').unplaced = .ok closed) :
    Reads (blockText keyword doc name body) (.declaration scope []) closed.settled := by
  have hblank : " ".toList = [' '] := by decide
  have hopen : " \x7b\n".toList = [' ', '\x7b', '\n'] := by decide
  have hclose : "\x7d\n".toList = ['\x7d', '\n'] := by decide
  have hend : Reads ['\x7d', '\n'] inside closed.settled :=
    Reads.symbol (by decide) hc (Reads.blank (by decide) (Reads.nil rfl))
  rw [blockText, hblank, hopen, hclose]
  simp only [List.append_assoc, List.cons_append, List.nil_append]
  refine Reads.append (Reads.docText (.declaration scope) (fun _ => rfl) (fun _ => rfl) hd) ?_
  refine Reads.word hk (by decide) hs (Reads.blank (by decide) ?_)
  refine Reads.word hn (by decide) rfl (Reads.blank (by decide) ?_)
  exact Reads.symbol (by decide) ho (Reads.blank (by decide) (hb.append hend))

theorem reads_enum (scope : Scope) {enumeration : Enumeration} (h : enumeration.IsWritable) :
    Reads enumeration.text (.declaration scope [])
      (.declaration (scope.addEnum enumeration.unplaced) []) := by
  have hkeyword : IsIdentifier "enum".toList := by decide
  rw [Enumeration.text]
  exact reads_block hkeyword (step_enum scope _) h.name h.doc rfl (reads_values _ h.values) rfl

theorem messagesText_eq_flatMap (messages : List Message) :
    messagesText messages = messages.flatMap Message.text := by
  induction messages with
  | nil => rfl
  | cons message rest ih => rw [messagesText, ih, List.flatMap_cons]

-- A scope with declarations behind those that it has
def Scope.extended (messages : List Message) (enums : List Enumeration) : Scope → Scope
  | .file f => .file { f with messages := f.messages ++ messages, enums := f.enums ++ enums }
  | .message inner outer =>
    .message { inner with messages := inner.messages ++ messages, enums := inner.enums ++ enums }
      outer

theorem foldl_addMessage (scope : Scope) (messages : List Message) :
    messages.foldl (fun read message => read.addMessage message.unplaced) scope
      = scope.extended (messages.map Message.unplaced) [] := by
  induction messages generalizing scope with
  | nil => cases scope <;> simp [Scope.extended]
  | cons message rest ih =>
      rw [List.foldl_cons, ih, List.map_cons]
      cases scope <;> simp [Scope.addMessage, Scope.extended]

theorem foldl_addEnum (scope : Scope) (enums : List Enumeration) :
    enums.foldl (fun read enumeration => read.addEnum enumeration.unplaced) scope
      = scope.extended [] (enums.map Enumeration.unplaced) := by
  induction enums generalizing scope with
  | nil => cases scope <;> simp [Scope.extended]
  | cons enumeration rest ih =>
      rw [List.foldl_cons, ih, List.map_cons]
      cases scope <;> simp [Scope.addEnum, Scope.extended]

-- A message is read at any depth.
def Message.IsRead (message : Message) : Prop :=
  ∀ scope, Reads message.text (.declaration scope [])
    (.declaration (scope.addMessage message.unplaced) [])

theorem reads_declarations (scope : Scope) {messages : List Message} {enums : List Enumeration}
    (hm : ∀ message ∈ messages, message.IsRead)
    (he : ∀ enumeration ∈ enums, enumeration.IsWritable) :
    Reads (messagesText messages ++ enums.flatMap Enumeration.text) (.declaration scope [])
      (.declaration (scope.extended (messages.map Message.unplaced)
        (enums.map Enumeration.unplaced)) []) := by
  have hmessages := Reads.flatMap (fun read => .declaration read []) (fun _ => rfl) scope hm
  rw [foldl_addMessage, ← messagesText_eq_flatMap] at hmessages
  have henums := Reads.flatMap (fun read => .declaration read []) (fun _ => rfl)
    (scope.extended (messages.map Message.unplaced) [])
    fun enumeration hmem read => reads_enum read (he enumeration hmem)
  rw [foldl_addEnum] at henums
  have hread := hmessages.append henums
  cases scope with
  | file f => simpa [Scope.extended] using hread
  | message inner outer => simpa [Scope.extended] using hread

theorem isRead_of_isWritable {message : Message} (h : message.IsWritable) : message.IsRead := by
  induction h with
  | @intro message name doc messages enums ih =>
      intro scope
      obtain ⟨title, lines, nested, inner, span⟩ := message
      have hkeyword : IsIdentifier "message".toList := by decide
      rw [Message.text, Message.unplaced, unplacedAll_eq_map]
      exact reads_block hkeyword (step_message scope _) name doc rfl
        (reads_declarations _ ih enums) rfl

theorem dotted_cons_cons (part next : String) (rest : List String) :
    (dotted (part :: next :: rest)).toList
      = part.toList ++ '.' :: (dotted (next :: rest)).toList := by
  have hdot : ".".toList = ['.'] := by decide
  rw [dotted, String.intercalate_cons_cons, String.toList_append, String.toList_append, hdot,
    List.append_assoc]
  rfl

-- The parts of a package name in front of its semicolon
theorem reads_parts {f : File} {part : String} {parts before : List String} {text : List Char}
    {after : State} (hn : ∀ name ∈ part :: parts, IsIdentifier name.toList)
    (h : Reads (';' :: text) (.packageRest f (before ++ part :: parts)) after) :
    Reads ((dotted (part :: parts)).toList ++ ';' :: text) (.packagePart f before) after := by
  induction parts generalizing part before with
  | nil =>
      have hone : dotted [part] = part := String.intercalate_singleton
      rw [hone]
      exact Reads.word (hn part (by simp)) (by decide) rfl h
  | cons next rest ih =>
      obtain ⟨hpart, hrest⟩ := List.forall_mem_cons.mp hn
      rw [List.append_cons] at h
      rw [dotted_cons_cons, List.append_assoc, List.cons_append]
      refine Reads.word hpart (by decide) rfl (Reads.symbol (by decide) rfl ?_)
      exact ih hrest h

theorem reads_package {package : Option String}
    (h : ∀ name ∈ package, ∃ part parts, name = dotted (part :: parts) ∧
      ∀ piece ∈ part :: parts, IsIdentifier piece.toList) :
    Reads (package.elim [] packageText) start (.declaration (.file { package }) []) := by
  cases package with
  | none => exact Reads.nil rfl
  | some name =>
      obtain ⟨part, parts, hname, hparts⟩ := h name rfl
      have hkeyword : "package ".toList = "package".toList ++ [' '] := by decide
      have hclose : ";\n".toList = [';', '\n'] := by decide
      unfold packageText
      rw [Option.elim_some, hkeyword, hclose]
      simp only [List.append_assoc, List.cons_append, List.nil_append]
      refine Reads.word (by decide) (by decide) rfl (Reads.blank (by decide) ?_)
      rw [hname]
      refine reads_parts hparts (Reads.symbol (by decide) rfl (Reads.blank (by decide) ?_))
      exact Reads.nil rfl

theorem reads_written {file : File} (h : file.IsWritable) :
    Reads file.written.toList start (.declaration (.file file.unplaced) []) := by
  have hmessages : ∀ message ∈ file.messages, message.IsRead := fun message hm =>
    isRead_of_isWritable (h.messages message hm)
  have hdeclarations := reads_declarations (.file { package := file.package }) hmessages h.enums
  have hread := (reads_package h.package).append hdeclarations
  rw [File.written, String.toList_ofList, List.append_assoc]
  exact hread

-- Every file is read back from its canonical text.
theorem parse_written {file : File} (h : file.IsWritable) :
    ∃ parsed, parse file.written = .ok parsed ∧ parsed.unplaced = file.unplaced :=
  parse_of_reads (reads_written h)

-- A message in a message, docs with an empty line and with stars, a keyword as the name of a
-- value, and the least number that can be written
def shop : File where
  package := some "shop.v1"
  messages := [
    ⟨"Order", ["What is bought.", "", "* once *"], [⟨"enum", [], [], [], {}⟩], [
      ⟨"State", [], [⟨"OPEN", 0, ["Not paid yet."], {}⟩, ⟨"message", 7, [], {}⟩], {}⟩], {}⟩]
  enums := [⟨"_Level", ["Levels."], [⟨"LOWEST", -9223372036854775807, [], {}⟩], {}⟩]

theorem isWritable_shop : shop.IsWritable := by
  have hinner : Message.IsWritable ⟨"enum", [], [], [], {}⟩ :=
    .intro (by decide) (by decide) nofun nofun
  refine ⟨?_, ?_, by decide +kernel⟩
  · rintro package ⟨⟩
    exact ⟨"shop", ["v1"], by decide, by decide⟩
  · intro message hm
    obtain rfl := List.mem_singleton.mp hm
    refine .intro (by decide) (by decide +kernel) ?_ (by decide +kernel)
    intro nested hn
    obtain rfl := List.mem_singleton.mp hn
    exact hinner

theorem parse_written_shop : shop.IsWritable ∧
    ∃ parsed, parse shop.written = .ok parsed ∧ parsed.unplaced = shop :=
  ⟨isWritable_shop, parse_written isWritable_shop⟩

end Codebook.Proto
