import Codebook.Proofs.Conversion
import Codebook.Proofs.Proto.Normal

namespace Codebook

open Declarations Proto Script

-- The searches of the files and of the messages in them come to what comes first in one flat
-- order of all enumerations.

-- The enumerations of a message come before those of the messages in it.
mutual

def Proto.Message.everyEnum : Message → List Enumeration
  | ⟨_, _, messages, enums, _⟩ => enums ++ everyEnumIn messages

def Proto.everyEnumIn : List Message → List Enumeration
  | [] => []
  | message :: rest => message.everyEnum ++ everyEnumIn rest

end

-- It is the order in which the messages are met.

mutual

theorem Proto.Message.enums_nested (above : List String) : (message : Message) →
    ((message.nested above).map Prod.snd).flatMap Message.enums = message.everyEnum
  | ⟨name, _, messages, _, _⟩ => by
    rw [Message.nested, List.map_cons, List.flatMap_cons, enums_nestedIn (above ++ [name]) messages,
      Message.everyEnum]

theorem enums_nestedIn (above : List String) : (messages : List Message) →
    ((nestedIn above messages).map Prod.snd).flatMap Message.enums = everyEnumIn messages
  | [] => rfl
  | message :: rest => by
    rw [nestedIn, List.map_append, List.flatMap_append, message.enums_nested above,
      enums_nestedIn above rest, everyEnumIn]

end

theorem Proto.File.everyEnum_eq (file : Proto.File) :
    file.everyEnum = file.enums ++ everyEnumIn file.messages := by
  rw [File.everyEnum, File.everyMessage, enums_nestedIn]

-- A search goes on only where nothing is found, so it is a search in the order of both parts.

mutual

theorem Proto.Message.findEnum_eq (name : String) : (message : Message) →
    message.findEnum name = message.everyEnum.find? (·.name == name)
  | ⟨_, _, messages, enums, _⟩ => by
    rw [Message.findEnum, Message.everyEnum, List.find?_append, ← findEnumIn_eq name messages]
    cases enums.find? (·.name == name) <;> rfl

theorem findEnumIn_eq (name : String) : (messages : List Message) →
    findEnumIn name messages = (everyEnumIn messages).find? (·.name == name)
  | [] => rfl
  | message :: rest => by
    rw [findEnumIn, everyEnumIn, List.find?_append, message.findEnum_eq name,
      ← findEnumIn_eq name rest]
    cases message.everyEnum.find? (·.name == name) <;> rfl

end

theorem Proto.File.findEnum_eq (file : Proto.File) (name : String) :
    file.findEnum name = file.everyEnum.find? (·.name == name) := by
  rw [File.findEnum, file.everyEnum_eq, List.find?_append, ← findEnumIn_eq name file.messages]
  cases file.enums.find? (·.name == name) <;> rfl

-- All enumerations of some files, file by file
def everyEnumOf (protos : List Proto.File) : List Enumeration := protos.flatMap File.everyEnum

theorem definition?_eq (settings : Settings) (protos : List Proto.File) :
    definition? settings protos
      = (everyEnumOf protos).find? (·.name == settings.target.enumName) := by
  rw [definition?, everyEnumOf, List.find?_flatMap]
  exact congrArg (List.findSome? · protos)
    (funext fun file => file.findEnum_eq settings.target.enumName)

theorem definition?_eq_some_iff {settings : Settings} {protos : List Proto.File}
    {enumeration : Enumeration} :
    definition? settings protos = some enumeration ↔
      enumeration.name = settings.target.enumName ∧ ∃ front behind,
        everyEnumOf protos = front ++ enumeration :: behind ∧
        ∀ other ∈ front, other.name ≠ settings.target.enumName := by
  rw [definition?_eq, List.find?_eq_some_iff_append]
  simp only [beq_iff_eq, Bool.not_eq_true', beq_eq_false_iff_ne]

theorem definition?_eq_none_iff {settings : Settings} {protos : List Proto.File} :
    definition? settings protos = none ↔
      ∀ enumeration ∈ everyEnumOf protos, enumeration.name ≠ settings.target.enumName := by
  rw [definition?_eq, List.find?_eq_none]
  simp only [beq_iff_eq]

-- The first enumeration with the name of the target is the one that is compared with and that
-- gives the docs. Without one there is no comparison and there are no docs.
theorem first_definition_documents {settings : Settings} {document : Document}
    {protos : List Proto.File} {generated : Generated}
    (h : compile settings document protos = .ok generated) :
    (generated.drift.isSome ↔
      ∃ enumeration ∈ everyEnumOf protos, enumeration.name = settings.target.enumName) ∧
    (∀ front enumeration behind, everyEnumOf protos = front ++ enumeration :: behind →
      enumeration.name = settings.target.enumName →
      (∀ other ∈ front, other.name ≠ settings.target.enumName) →
      generated.drift = some (Drift.between (generated.constants.map (·.name))
        (enumeration.values.map (·.name))) ∧
      ∀ constant ∈ generated.constants,
        IsDocFor enumeration.values constant.name constant.doc) ∧
    ((∀ enumeration ∈ everyEnumOf protos, enumeration.name ≠ settings.target.enumName) →
      generated.drift = none ∧ ∀ constant ∈ generated.constants, constant.doc = []) ∧
    generated.documented = generated.constants.countP fun constant => constant.doc ≠ [] := by
  obtain ⟨entries, -, -, rfl⟩ := compile_eq_ok.mp h
  refine ⟨?_, fun front enumeration behind hwalk hname hfront => ?_, fun hnone => ?_, ?_⟩
  · have hdrift : (generatedOf settings protos entries).drift.isSome
        = (definition? settings protos).isSome := Option.isSome_map
    rw [hdrift, definition?_eq, List.find?_isSome]
    simp only [beq_iff_eq]
  · have hdefinition := definition?_eq_some_iff.mpr ⟨hname, front, behind, hwalk, hfront⟩
    refine ⟨congrArg (Option.map _) hdefinition, fun constant hc => ?_⟩
    obtain ⟨entry, -, rfl⟩ := (mem_constantsOf _ entries constant).mp hc
    rw [hdefinition]
    exact isDocFor_constantOf enumeration entry
  · have hdefinition := definition?_eq_none_iff.mpr hnone
    refine ⟨congrArg (Option.map _) hdefinition, fun constant hc => ?_⟩
    obtain ⟨entry, -, rfl⟩ := (mem_constantsOf _ entries constant).mp hc
    rw [hdefinition]
    rfl
  · refine List.countP_congr fun constant _ => ?_
    simp

-- A source with several definitions. The one in the inner message comes first, and it has two
-- values with one name.
def innerCodes : Enumeration where
  name := "ResponseCodeEnum"
  doc := []
  span := Span.point {}
  values := [⟨"BUSY", 12, ["Before"], Span.point {}⟩, ⟨"WAIT", 13, ["Other"], Span.point {}⟩,
    ⟨"BUSY", 12, ["Behind"], Span.point {}⟩]

def outerCodes : Enumeration where
  name := "ResponseCodeEnum"
  doc := []
  span := Span.point {}
  values := [⟨"OK", 0, ["Outer"], Span.point {}⟩]

def otherCodes : Enumeration := { outerCodes with name := "FeeDataType" }

def nestedSource : Proto.File where
  enums := [otherCodes]
  messages := [
    ⟨"Response", [], [⟨"Header", [], [], [innerCodes], Span.point {}⟩], [otherCodes],
      Span.point {}⟩,
    ⟨"Query", [], [], [outerCodes], Span.point {}⟩]

theorem nested_definition_documents :
    ∃ generated,
      compile {} twoCodes [emptySource, nestedSource, { enums := [outerCodes] }] = .ok generated ∧
      generated.drift = some ⟨["OK"], ["WAIT"]⟩ ∧
      (∀ constant ∈ generated.constants,
        IsDocFor innerCodes.values constant.name constant.doc) ∧
      generated.constants.map (·.doc) = [[], ["Behind"]] ∧ generated.documented = 1 := by
  have hcompile (protos : List Proto.File) :
      compile {} twoCodes protos = .ok (generatedOf {} protos _) :=
    compile_eq_ok.mpr ⟨_, readDeclarations_twoCodes,
      fun _ column => by cases column <;> decide, rfl⟩
  obtain ⟨-, hfirst, -, hcount⟩ := first_definition_documents (hcompile
    [emptySource, nestedSource, { enums := [outerCodes] }])
  obtain ⟨hdrift, hdocs⟩ := hfirst [otherCodes, otherCodes] innerCodes [outerCodes, outerCodes]
    rfl rfl (by decide)
  exact ⟨_, hcompile _, hdrift.trans (by decide +kernel), hdocs, by decide +kernel,
    hcount.trans (by decide +kernel)⟩

end Codebook
