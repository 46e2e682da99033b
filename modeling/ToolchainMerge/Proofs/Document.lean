import ToolchainMerge.Proofs.JsonGrammar
import ToolchainMerge.Proofs.JsonRecord
import ToolchainMerge.Proofs.ToolchainSpelling
import ToolchainMerge.Toolchain.Schema

/-!
# Documents are read from their spellings

Every value of every type of records is read from each of its spellings, and so from each of
their texts, as long as not too many arrays and objects are open at once
(`RecordType.readText_of_spelling`).  In particular a list of toolchains that is written as a
document is read from it again (`Toolchain.readDocument_writeDocument`).

The name of every member is read, also of one that belongs to no field.  An object with a name that
does not decode to a string spells nothing, and it is refused
(`RecordType.not_forall_unknown_member`).

For each type it has to be seen that its fields have names of their own, that they follow the
rules of the format, that they make up a record, and that their codecs are lawful.  Flag groups
contain flag groups, which are read and written by different recursions.  Reading goes by the
levels that are left, like the spelling (`FlagGroup.readAt_of_spelling`), and writing by the group
(`FlagGroup.spelling_toJson`); so the two do not meet in one induction.
-/

namespace ToolchainMerge

open Json Json.Codec Json.Slot

/-! ## Parts without nesting -/

theorem MakeVariable.lawful : MakeVariable.schema.Lawful MakeVariable.rules where
  nodup_names := by decide
  exists_slots wanted _ := by
    refine ⟨_, .mandatory lawful_string <|
      .mandatory lawful_string .nil, by simp, by simp, ?_⟩
    rintro ⟨⟩
    cases wanted
    simp

theorem ToolPath.lawful : ToolPath.schema.Lawful ToolPath.rules where
  nodup_names := by decide
  exists_slots wanted _ := by
    refine ⟨_, .mandatory lawful_string <|
      .mandatory lawful_string .nil, by simp, by simp, ?_⟩
    rintro ⟨⟩
    cases wanted
    simp

theorem ArtifactNamePattern.lawful :
    ArtifactNamePattern.schema.Lawful ArtifactNamePattern.rules where
  nodup_names := by decide
  exists_slots wanted _ := by
    refine ⟨_, .mandatory lawful_string <|
      .mandatory lawful_string <|
      .mandatory lawful_string .nil, by simp, by simp, ?_⟩
    rintro ⟨⟩
    cases wanted
    simp

theorem VariableWithValue.lawful : VariableWithValue.schema.Lawful VariableWithValue.rules where
  nodup_names := by decide
  exists_slots wanted _ := by
    refine ⟨_, .mandatory lawful_string <|
      .mandatory lawful_string .nil, by simp, by simp, ?_⟩
    rintro ⟨⟩
    cases wanted
    simp

theorem WithFeatureSet.lawful : WithFeatureSet.schema.Lawful WithFeatureSet.rules where
  nodup_names := by decide
  exists_slots wanted _ := by
    refine ⟨_, .defaulted lawful_string.list rfl rfl <|
      .defaulted lawful_string.list rfl rfl .nil, by simp, by simp, ?_⟩
    rintro ⟨⟩
    cases wanted
    simp

theorem FeatureSet.lawful : FeatureSet.schema.Lawful FeatureSet.rules where
  nodup_names := by decide
  exists_slots wanted _ := by
    refine ⟨_, .defaulted lawful_string.list rfl rfl .nil, by simp, by simp, ?_⟩
    rintro ⟨⟩
    cases wanted
    simp

theorem EnvEntry.lawful : EnvEntry.schema.Lawful EnvEntry.rules where
  nodup_names := by decide
  exists_slots wanted _ := by
    refine ⟨_, .mandatory lawful_string <|
      .mandatory lawful_string .nil, by simp, by simp, ?_⟩
    rintro ⟨⟩
    cases wanted
    simp

theorem EnvSet.lawful : EnvSet.schema.Lawful EnvSet.rules where
  nodup_names := by decide
  exists_slots wanted _ := by
    refine ⟨_, .defaulted lawful_string.list rfl rfl <|
      .defaulted EnvEntry.lawful.codec.list rfl rfl <|
      .defaulted WithFeatureSet.lawful.codec.list rfl rfl .nil, by simp, by simp, ?_⟩
    rintro ⟨⟩
    cases wanted
    simp

/-! ## Flag groups -/

namespace FlagGroup

variable {nested : List FlagGroup → Json → Prop} {group : FlagGroup} {levels : Nat}

/-- The fields of a flag group follow the rules and make it up, if its nested groups are read from
their spellings. -/
theorem exists_slots (reader : Codec (List FlagGroup))
    (hread : ∀ json, nested group.groups json → reader.read levels json = .ok group.groups) :
    ∃ slots, FollowAll levels group (schemaOver reader).default (rulesOver fun _ => nested)
      (schemaOver reader).fields slots ∧ MakeUp slots group := by
  refine ⟨_, .cons (follows_defaulted lawful_string.list rfl rfl) <|
    .cons (follows_of_read rfl hread fun hnone => ⟨rfl, hnone.symm⟩) <|
    .cons (follows_optional lawful_string Spelling.neverNull_string rfl) <|
    .cons (follows_defaulted lawful_string.list rfl rfl) <|
    .cons (follows_defaulted lawful_string.list rfl rfl) <|
    .cons (follows_optional lawful_string Spelling.neverNull_string rfl) <|
    .cons (follows_optional lawful_string Spelling.neverNull_string rfl) <|
    .cons (follows_optional VariableWithValue.lawful.codec (Spelling.neverNull_record _) rfl) .nil,
    by simp, by simp, ?_⟩
  rintro ⟨⟩
  cases group
  simp

theorem nodup_names (reader : Codec (List FlagGroup)) :
    ((schemaOver reader).fields.flatMap Field.names).Nodup := by
  show ["flags", "flag", "flag_groups", "flag_group", "iterate_over", "expand_if_all_available",
    "expand_if_none_available", "expand_if_true", "expand_if_false", "expand_if_equal"].Nodup
  decide

/-- The codec by which a flag group reads its nested groups. -/
def reading (read : Json → Except ReadError FlagGroup) : Codec (List FlagGroup) :=
  ⟨readList fun _ => read, fun _ => .null⟩

/-- A flag group is read if its nested groups are. -/
theorem read_of_spelling {read : Json → Except ReadError FlagGroup} {json : Json}
    (hread : ∀ groups json, nested groups json → (reading read).read levels json = .ok groups)
    (hjson : Spelling.record (rulesOver fun _ => nested) (levels + 1) group json) :
    (schemaOver (reading read)).read (levels + 1) json = .ok group := by
  obtain ⟨_, hslots, hmakeUp⟩ := exists_slots (reading read) (hread group.groups)
  exact Schema.read_of_spelling (nodup_names _) hslots hmakeUp hjson

/-- **Flag groups are read from their spellings.** -/
theorem readAt_of_spelling : ∀ levels group json, spelling levels group json →
    readAt levels json = .ok group
  | 0, _, _, hjson => hjson.elim
  | 1, group, json, hjson => by
      -- the array of nested groups has no level left
      exact read_of_spelling (fun _ _ hnested => hnested.elim) hjson
  | levels + 2, group, json, hjson => by
      refine read_of_spelling (fun groups json hnested => ?_) hjson
      exact readList_of_spelling (fun _ => readAt_of_spelling levels) hnested

theorem toJsons_eq_map (groups : List FlagGroup) : toJsons groups = groups.map toJson := by
  induction groups with
  | nil => rfl
  | cons group groups ih => rw [toJsons, ih, List.map_cons]

/-- The codec by which a flag group writes its nested groups: they have been written before. -/
def written (groups : List FlagGroup) : Codec (List FlagGroup) :=
  ⟨fun _ => mismatch "", fun _ => .array (toJsons groups) none⟩

theorem toJson_eq (group : FlagGroup) :
    toJson group = (schemaOver (written group.groups)).write group := by
  cases group
  rw [toJson, written]

/-- The fields of a flag group write what the rules allow, if the nested groups are written as
they are spelled. -/
theorem obeys_written (hplain : ∀ inner ∈ group.groups, (toJson inner).Plain)
    (hspelled : (Json.array (group.groups.map toJson) none).depth ≤ levels →
      nested group.groups (.array (group.groups.map toJson) none)) :
    List.Forall₂ (Field.Obeys levels group) (rulesOver fun _ => nested)
      (schemaOver (written group.groups)).fields := by
  have hwrite : (written group.groups).write group.groups =
      .array (group.groups.map toJson) none := by
    rw [written, toJsons_eq_map]
  refine .cons (Field.obeys_defaulted lawful_string.list) <|
    .cons (Field.obeys_of_write (List.mem_cons_self ..) (congrArg some hwrite)
      (.array (List.forall_mem_map.mpr hplain)) hspelled) <|
    .cons (Field.obeys_optional lawful_string) <|
    .cons (Field.obeys_defaulted lawful_string.list) <|
    .cons (Field.obeys_defaulted lawful_string.list) <|
    .cons (Field.obeys_optional lawful_string) <|
    .cons (Field.obeys_optional lawful_string) <|
    .cons (Field.obeys_optional VariableWithValue.lawful.codec) .nil

theorem plain_toJson_of_nested (hnested : ∀ inner ∈ group.groups, (toJson inner).Plain) :
    (toJson group).Plain := by
  -- how the nested groups are spelled does not matter here
  have hobeys : List.Forall₂ (Field.Obeys 0 group) (rulesOver fun _ _ _ => True)
      (schemaOver (written group.groups)).fields := obeys_written hnested fun _ => trivial
  rw [toJson_eq]
  exact Schema.plain_write hobeys

mutual

theorem plain_toJson : (group : FlagGroup) → (toJson group).Plain
  | ⟨_, groups, _, _, _, _, _, _⟩ => plain_toJson_of_nested (plain_toJsons groups)

theorem plain_toJsons : (groups : List FlagGroup) → ∀ group ∈ groups, (toJson group).Plain
  | [] => List.forall_mem_nil _
  | group :: groups => List.forall_mem_cons.mpr ⟨plain_toJson group, plain_toJsons groups⟩

end

/-- A written flag group is one of its spellings if its nested groups are. -/
theorem spelling_toJson_of_nested (hdepth : (toJson group).depth ≤ levels)
    (hnested : ∀ inner ∈ group.groups, ∀ levels, (toJson inner).depth ≤ levels →
      spelling levels inner (toJson inner)) : spelling levels group (toJson group) := by
  rw [toJson_eq] at hdepth ⊢
  obtain _ | levels := levels
  · exact absurd hdepth (Nat.not_succ_le_zero _)
  · refine Schema.spelling_write (obeys_written (fun inner _ => plain_toJson inner) ?_) hdepth
    intro hgroups
    obtain _ | levels := levels
    · exact absurd hgroups (Nat.not_succ_le_zero _)
    · exact spelling_list hgroups hnested

mutual

/-- **What is written for a flag group is one of its spellings.** -/
theorem spelling_toJson : (group : FlagGroup) → ∀ levels, (toJson group).depth ≤ levels →
    spelling levels group (toJson group)
  | ⟨_, groups, _, _, _, _, _, _⟩, _, hdepth =>
      spelling_toJson_of_nested hdepth (spelling_toJsons groups)

theorem spelling_toJsons : (groups : List FlagGroup) → ∀ group ∈ groups, ∀ levels,
    (toJson group).depth ≤ levels → spelling levels group (toJson group)
  | [] => List.forall_mem_nil _
  | group :: groups => List.forall_mem_cons.mpr ⟨spelling_toJson group, spelling_toJsons groups⟩

end

theorem lawful_codec : codec.Lawful spelling :=
  ⟨readAt_of_spelling, plain_toJson, spelling_toJson⟩

end FlagGroup

/-! ## Named items -/

theorem FlagSet.lawful : FlagSet.schema.Lawful FlagSet.rules where
  nodup_names := by decide
  exists_slots wanted _ := by
    refine ⟨_, .defaulted lawful_string.list rfl rfl <|
      .defaulted WithFeatureSet.lawful.codec.list rfl rfl <|
      .defaulted FlagGroup.lawful_codec.list rfl rfl .nil, by simp, by simp, ?_⟩
    rintro ⟨⟩
    cases wanted
    simp

theorem Feature.lawful : Feature.schema.Lawful Feature.rules where
  nodup_names := by decide
  exists_slots wanted _ := by
    refine ⟨_, .mandatory lawful_string <|
      .defaulted lawful_bool rfl rfl <|
      .defaulted FlagSet.lawful.codec.list rfl rfl <|
      .defaulted EnvSet.lawful.codec.list rfl rfl <|
      .defaulted FeatureSet.lawful.codec.list rfl rfl <|
      .defaulted lawful_string.list rfl rfl <|
      .defaulted lawful_string.list rfl rfl .nil, by simp, by simp, ?_⟩
    rintro ⟨⟩
    cases wanted
    simp

theorem Tool.lawful : Tool.schema.Lawful Tool.rules where
  nodup_names := by decide
  exists_slots wanted _ := by
    refine ⟨_, .defaulted lawful_string rfl rfl <|
      .defaulted WithFeatureSet.lawful.codec.list rfl rfl <|
      .defaulted lawful_string.list rfl rfl .nil, by simp, by simp, ?_⟩
    rintro ⟨⟩
    cases wanted
    simp

theorem ActionConfig.lawful : ActionConfig.schema.Lawful ActionConfig.rules where
  nodup_names := by decide
  exists_slots wanted _ := by
    refine ⟨_, .mandatory lawful_string <|
      .mandatory lawful_string <|
      .defaulted lawful_bool rfl rfl <|
      .defaulted Tool.lawful.codec.list rfl rfl <|
      .defaulted FlagSet.lawful.codec.list rfl rfl <|
      .defaulted lawful_string.list rfl rfl .nil, by simp, by simp, ?_⟩
    rintro ⟨⟩
    cases wanted
    simp

/-! ## Toolchains and documents -/

theorem Toolchain.lawful : Toolchain.schema.Lawful Toolchain.rules where
  nodup_names := by decide
  exists_slots wanted _ := by
    refine ⟨_, .mandatory lawful_string <|
      .mandatory lawful_string <|
      .mandatory lawful_string <|
      .mandatory lawful_string <|
      .mandatory lawful_string <|
      .mandatory lawful_string <|
      .mandatory lawful_string <|
      .mandatory lawful_string <|
      .optional lawful_string Spelling.neverNull_string rfl <|
      .optional lawful_string Spelling.neverNull_string rfl <|
      .defaulted lawful_string.list rfl rfl <|
      .defaulted MakeVariable.lawful.codec.list rfl rfl <|
      .defaulted ToolPath.lawful.codec.list rfl rfl <|
      .defaulted ArtifactNamePattern.lawful.codec.list rfl rfl <|
      .defaulted Feature.lawful.codec.list rfl rfl <|
      .defaulted ActionConfig.lawful.codec.list rfl rfl .nil, by simp, by simp, ?_⟩
    rintro ⟨⟩
    cases wanted
    simp

namespace Toolchain

theorem lawful_documentSchema : documentSchema.Lawful documentRules where
  nodup_names := by decide
  exists_slots wanted levels := by
    have hcodec := lawful.codec.list
    refine ⟨_, ⟨.cons (follows_of_read rfl (hcodec.read levels wanted) False.elim) .nil,
      .cons (Field.obeys_of_write (List.mem_cons_self ..) rfl (hcodec.plain _)
        (hcodec.spelling_write wanted levels)) .nil⟩, by simp, by simp, ?_⟩
    simp

/-- **Documents are read back.**  A list of toolchains is read from the document that is written
for it, and from every other text of the same tokens, whatever blanks stand between them. -/
theorem readDocument_writeDocument {toolchains : List Toolchain}
    (hdepth : (documentSchema.write toolchains).depth ≤ maxDepth) :
    readDocument (writeDocument toolchains) = .ok toolchains ∧
      ∀ text : String, Spells (documentSchema.write toolchains).tokens text.toList →
        readDocument text = .ok toolchains := by
  have hlawful := lawful_documentSchema.codec
  have hread : ∀ text : String, Spells (documentSchema.write toolchains).tokens text.toList →
      readDocument text = .ok toolchains := by
    intro text htext
    have hvalue := hlawful.read_write toolchains maxDepth hdepth
    rw [readDocument, readText, Document.ofText_of_spells (hlawful.plain toolchains) htext,
      Codec.readDocument]
    show (documentSchema.codec.read maxDepth (documentSchema.codec.write toolchains)).bind _ = _
    rw [hvalue]
    rfl
  exact ⟨hread _ (spells_render (hlawful.plain toolchains)), hread⟩

/-- A toolchain with a group in a group, and with characters that are escaped. -/
def withNestedGroups : List Toolchain :=
  let inner : FlagGroup := ⟨["-I\"\\"], [], some "dir", [], ["x"], none, some "", some ⟨"v", "1"⟩⟩
  let outer : FlagGroup := ⟨["\x01\x1f\t"], [inner, inner], none, ["y"], [], some "é", none, none⟩
  [{ (default : Toolchain) with
    targetOs := some "linux"
    features := [⟨"opt\n", true, [⟨["c-compile"], [⟨["a"], []⟩], [outer]⟩], [], [], [], []⟩]
    actionConfigs := [⟨"config", "strip", false, [⟨"", [], ["r"]⟩], [], ["opt"]⟩] }]

theorem readDocument_writeDocument_nestedGroups :
    (documentSchema.write withNestedGroups).depth ≤ maxDepth ∧
      readDocument (writeDocument withNestedGroups) = .ok withNestedGroups ∧
      ∀ text : String, Spells (documentSchema.write withNestedGroups).tokens text.toList →
        readDocument text = .ok withNestedGroups :=
  have hdepth : (documentSchema.write withNestedGroups).depth ≤ maxDepth := by decide
  ⟨hdepth, readDocument_writeDocument hdepth⟩

end Toolchain

/-! ## All types of records -/

/-- The types of records in a description file.  The document is a record as well. -/
inductive RecordType where
  | makeVariable
  | toolPath
  | artifactNamePattern
  | variableWithValue
  | withFeatureSet
  | featureSet
  | envEntry
  | envSet
  | flagGroup
  | flagSet
  | feature
  | tool
  | actionConfig
  | toolchain
  | document
deriving DecidableEq, Repr

namespace RecordType

/-- The values of a type of records. -/
def Value : RecordType → Type
  | makeVariable => MakeVariable
  | toolPath => ToolPath
  | artifactNamePattern => ArtifactNamePattern
  | variableWithValue => VariableWithValue
  | withFeatureSet => WithFeatureSet
  | featureSet => FeatureSet
  | envEntry => EnvEntry
  | envSet => EnvSet
  | flagGroup => FlagGroup
  | flagSet => FlagSet
  | feature => Feature
  | tool => Tool
  | actionConfig => ActionConfig
  | toolchain => Toolchain
  | document => List Toolchain

/-- How the values of a type of records are read and written. -/
def codec : (type : RecordType) → Codec type.Value
  | makeVariable => MakeVariable.schema.codec
  | toolPath => ToolPath.schema.codec
  | artifactNamePattern => ArtifactNamePattern.schema.codec
  | variableWithValue => VariableWithValue.schema.codec
  | withFeatureSet => WithFeatureSet.schema.codec
  | featureSet => FeatureSet.schema.codec
  | envEntry => EnvEntry.schema.codec
  | envSet => EnvSet.schema.codec
  | flagGroup => FlagGroup.codec
  | flagSet => FlagSet.schema.codec
  | feature => Feature.schema.codec
  | tool => Tool.schema.codec
  | actionConfig => ActionConfig.schema.codec
  | toolchain => Toolchain.schema.codec
  | document => Toolchain.documentSchema.codec

/-- What stands for the values of a type of records, by the format alone. -/
def spelling : (type : RecordType) → Spelling type.Value
  | makeVariable => MakeVariable.spelling
  | toolPath => ToolPath.spelling
  | artifactNamePattern => ArtifactNamePattern.spelling
  | variableWithValue => VariableWithValue.spelling
  | withFeatureSet => WithFeatureSet.spelling
  | featureSet => FeatureSet.spelling
  | envEntry => EnvEntry.spelling
  | envSet => EnvSet.spelling
  | flagGroup => FlagGroup.spelling
  | flagSet => FlagSet.spelling
  | feature => Feature.spelling
  | tool => Tool.spelling
  | actionConfig => ActionConfig.spelling
  | toolchain => Toolchain.spelling
  | document => Toolchain.documentSpelling

theorem lawful : (type : RecordType) → type.codec.Lawful type.spelling
  | makeVariable => MakeVariable.lawful.codec
  | toolPath => ToolPath.lawful.codec
  | artifactNamePattern => ArtifactNamePattern.lawful.codec
  | variableWithValue => VariableWithValue.lawful.codec
  | withFeatureSet => WithFeatureSet.lawful.codec
  | featureSet => FeatureSet.lawful.codec
  | envEntry => EnvEntry.lawful.codec
  | envSet => EnvSet.lawful.codec
  | flagGroup => FlagGroup.lawful_codec
  | flagSet => FlagSet.lawful.codec
  | feature => Feature.lawful.codec
  | tool => Tool.lawful.codec
  | actionConfig => ActionConfig.lawful.codec
  | toolchain => Toolchain.lawful.codec
  | document => Toolchain.lawful_documentSchema.codec

/-- **Reading does not depend on the spelling.**  A value of any type of records is read from each
of the trees that spell it with at most `maxDepth` arrays and objects open along its fields, and
from every text of such a tree. -/
theorem readText_of_spelling (type : RecordType) {value : type.Value} {json : Json}
    (hjson : type.spelling maxDepth value json) :
    type.codec.read maxDepth json = .ok value ∧
      ∀ text : String, text.toList ∈ json.texts → type.codec.readText text = .ok value := by
  have hread : type.codec.read maxDepth json = .ok value :=
    type.lawful.read maxDepth value json hjson
  refine ⟨hread, fun text htext => ?_⟩
  rw [readText, Document.ofText_of_mem_texts htext, Codec.readDocument]
  show (type.codec.read maxDepth json).bind _ = _
  rw [hread]
  rfl

/-- A flag group with another one in it. -/
def nestedGroups : FlagGroup :=
  ⟨["a"], [⟨["b"], [], some "x", [], [], none, none, none⟩], none, [], [], none, none,
    some ⟨"v", "1"⟩⟩

/-- The members stand in another order and have their other names, one of them belongs to no field
and one is `null`.  The record that is compared with and the inner group are arrays. -/
def mixedSpelling : Json :=
  let text (value : String) : Json := .string (.ofString value)
  let inner : Json := .array [.array [text "b"] none, .array [] none, text "x"] none
  .object [
    (.ofString "expand_if_equal", .array [text "v", text "1"] none),
    (.ofString "comment", .object [(.ofString "", .number ⟨true, [1], [5], false, [3]⟩)] none),
    (.ofString "flag_group", .array [inner] none),
    (.ofString "iterate_over", .null),
    (.ofString "flag", .array [text "a"] none)] none

theorem spelling_mixedSpelling : FlagGroup.spelling maxDepth nestedGroups mixedSpelling := by
  have htext : ∀ value, Spelling.string 0 value (.string (.ofString value)) := fun value =>
    ⟨_, rfl, Literal.says_ofString value⟩
  have hinner : FlagGroup.spelling 125 ⟨["b"], [], some "x", [], [], none, none, none⟩
      (.array [.array [.string (.ofString "b")] none, .array [] none, .string (.ofString "x")]
        none) := by
    refine Or.inr ⟨_, rfl, _, _, (List.take_append_drop 3 _).symm, ?_, ?_⟩
    · exact .cons ⟨_, rfl, .cons (htext _) .nil⟩ <| .cons ⟨_, rfl, .nil⟩ <|
        .cons (htext _) .nil
    · simp [FlagGroup.rulesOver, FieldRule.defaulted, FieldRule.optional]
  refine Or.inl ⟨_, rfl, ?_⟩
  refine .field_at 7 rfl (Literal.says_ofString _) (List.mem_singleton_self _) ?_ ?_
  · exact Or.inr ⟨_, rfl, _, [], rfl, .cons (htext _) <| .cons (htext _) .nil,
      List.forall_mem_nil _⟩
  refine .other (Literal.says_ofString _) ?_ ?_ ?_
  · simp [FlagGroup.rulesOver, FieldRule.defaulted, FieldRule.optional]
  · exact .object (by simp [Literal.ofString]) (by simpa using .number _)
  refine .field_at 1 rfl (Literal.says_ofString _) (by simp [FieldRule.defaulted]) ?_ ?_
  · exact ⟨_, rfl, .cons hinner .nil⟩
  refine .field_at 1 rfl (Literal.says_ofString _) (List.mem_singleton_self _) rfl ?_
  refine .field_at 0 rfl (Literal.says_ofString _) (by simp [FieldRule.defaulted]) ?_ ?_
  · exact ⟨_, rfl, .cons (htext _) .nil⟩
  refine .done ?_
  simp [FlagGroup.rulesOver, FieldRule.defaulted, FieldRule.optional, nestedGroups]

theorem readText_of_spelling_mixedSpelling :
    spelling .flagGroup maxDepth nestedGroups mixedSpelling ∧
      FlagGroup.codec.read maxDepth mixedSpelling = .ok nestedGroups ∧
      ∀ text : String, text.toList ∈ mixedSpelling.texts →
        FlagGroup.codec.readText text = .ok nestedGroups :=
  ⟨spelling_mixedSpelling, readText_of_spelling .flagGroup spelling_mixedSpelling⟩

/-- Not every member that belongs to no field may be put into an object: its name has to decode,
and half of a character alone does not. -/
theorem not_forall_unknown_member :
    (¬ ∀ (value : MakeVariable) (members : List (Literal × Json)) (key : Literal) (unknown : Json),
      MakeVariable.spelling maxDepth value (.object members none) →
      (∀ rule ∈ MakeVariable.rules, ∀ name ∈ rule.names, ¬ key.Says name) →
      (Json.object ((key, unknown) :: members) none).WellFormed →
      MakeVariable.schema.codec.read maxDepth (.object ((key, unknown) :: members) none) =
        .ok value) ∧
    MakeVariable.schema.codec.readText "\x7b\"name\":\"a\",\"value\":\"b\"\x7d" =
      .ok ⟨"a", "b"⟩ ∧
    MakeVariable.schema.codec.readText
        "\x7b\"\\ud800\":0,\"name\":\"a\",\"value\":\"b\"\x7d" =
      .error (.fault .malformed) := by
  refine ⟨fun hall => ?_, by decide +kernel, by decide +kernel⟩
  have hspelled := MakeVariable.lawful.codec.spelling_write ⟨"a", "b"⟩ maxDepth (by decide)
  cases (MakeVariable.lawful.codec.plain ⟨"a", "b"⟩).wellFormed with
  | object hkeys hvalues =>
      have hread := hall _ _ ⟨[.surrogate 0xD800], none⟩ (.number ⟨false, [0], [], false, []⟩)
        hspelled (fun _ _ _ _ => Literal.not_says_surrogate)
        (.object (List.forall_mem_cons.mpr ⟨rfl, hkeys⟩)
          (List.forall_mem_cons.mpr ⟨.number _, hvalues⟩))
      obtain ⟨error, herror⟩ : ∃ error, MakeVariable.schema.readObject 126 (_ :: _) none =
          .error error :=
        Schema.exists_error_of_not_says (List.mem_cons_self ..)
          (fun _ => Literal.not_says_surrogate)
      exact nomatch herror.symm.trans hread

end RecordType

end ToolchainMerge
