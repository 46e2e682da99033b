import ToolchainMerge.Proofs.Document
import ToolchainMerge.Proofs.ObjectMembers

/-!
# Which objects describe toolchains

For every type of records in a description file, an object with readable members is read as a
record, or it is refused for the field that the order of the members or that of the declaration puts
first (`RecordType.verdict_read_object`).  What a field demands is taken from the rules of the
format.

Members are readable with the levels that the object leaves them.  As a text of its own a value has
one level more, and there are values that need it: then the object is refused although no field is
given twice and none is lacking.  So is an object with a name that does not decode to a string, even
if no field would have that name (`RecordType.not_forall_readable_alone`).

## Strategy

For each type it has to be seen that its fields demand what the rules say.  A flag group is read by
another schema at each depth, because the groups in it are; with the same levels left all these
schemas read the same members (`FlagGroup.readable_of_reader`).
-/

namespace ToolchainMerge

open Json Json.Field

/-! ## Fields and rules -/

theorem MakeVariable.realizes : List.Forall₂ Realizes rules schema.fields :=
  .cons realizes_mandatory <| .cons realizes_mandatory .nil

theorem ToolPath.realizes : List.Forall₂ Realizes rules schema.fields :=
  .cons realizes_mandatory <| .cons realizes_mandatory .nil

theorem ArtifactNamePattern.realizes : List.Forall₂ Realizes rules schema.fields :=
  .cons realizes_mandatory <| .cons realizes_mandatory <| .cons realizes_mandatory .nil

theorem VariableWithValue.realizes : List.Forall₂ Realizes rules schema.fields :=
  .cons realizes_mandatory <| .cons realizes_mandatory .nil

theorem WithFeatureSet.realizes : List.Forall₂ Realizes rules schema.fields :=
  .cons (realizes_defaulted schema.default rfl rfl) <|
    .cons (realizes_defaulted schema.default rfl rfl) .nil

theorem FeatureSet.realizes : List.Forall₂ Realizes rules schema.fields :=
  .cons (realizes_defaulted schema.default rfl rfl) .nil

theorem EnvEntry.realizes : List.Forall₂ Realizes rules schema.fields :=
  .cons realizes_mandatory <| .cons realizes_mandatory .nil

theorem EnvSet.realizes : List.Forall₂ Realizes rules schema.fields :=
  .cons (realizes_defaulted schema.default rfl rfl) <|
    .cons (realizes_defaulted schema.default rfl rfl) <|
    .cons (realizes_defaulted schema.default rfl rfl) .nil

/-- It does not matter how nested groups are read and spelled. -/
theorem FlagGroup.realizes (nested : Spelling (List FlagGroup)) (reader : Codec (List FlagGroup)) :
    List.Forall₂ Realizes (rulesOver nested) (schemaOver reader).fields :=
  let default := (schemaOver reader).default
  .cons (realizes_defaulted default rfl rfl) <|
    .cons (realizes_defaulted default rfl rfl) <|
    .cons (realizes_optional default rfl) <|
    .cons (realizes_defaulted default rfl rfl) <|
    .cons (realizes_defaulted default rfl rfl) <|
    .cons (realizes_optional default rfl) <|
    .cons (realizes_optional default rfl) <|
    .cons (realizes_optional default rfl) .nil

theorem FlagSet.realizes : List.Forall₂ Realizes rules schema.fields :=
  .cons (realizes_defaulted schema.default rfl rfl) <|
    .cons (realizes_defaulted schema.default rfl rfl) <|
    .cons (realizes_defaulted schema.default rfl rfl) .nil

theorem Feature.realizes : List.Forall₂ Realizes rules schema.fields :=
  .cons realizes_mandatory <|
    .cons (realizes_defaulted schema.default rfl rfl) <|
    .cons (realizes_defaulted schema.default rfl rfl) <|
    .cons (realizes_defaulted schema.default rfl rfl) <|
    .cons (realizes_defaulted schema.default rfl rfl) <|
    .cons (realizes_defaulted schema.default rfl rfl) <|
    .cons (realizes_defaulted schema.default rfl rfl) .nil

theorem Tool.realizes : List.Forall₂ Realizes rules schema.fields :=
  .cons (realizes_defaulted schema.default rfl rfl) <|
    .cons (realizes_defaulted schema.default rfl rfl) <|
    .cons (realizes_defaulted schema.default rfl rfl) .nil

theorem ActionConfig.realizes : List.Forall₂ Realizes rules schema.fields :=
  .cons realizes_mandatory <|
    .cons realizes_mandatory <|
    .cons (realizes_defaulted schema.default rfl rfl) <|
    .cons (realizes_defaulted schema.default rfl rfl) <|
    .cons (realizes_defaulted schema.default rfl rfl) <|
    .cons (realizes_defaulted schema.default rfl rfl) .nil

theorem Toolchain.realizes : List.Forall₂ Realizes rules schema.fields :=
  .cons realizes_mandatory <|
    .cons realizes_mandatory <|
    .cons realizes_mandatory <|
    .cons realizes_mandatory <|
    .cons realizes_mandatory <|
    .cons realizes_mandatory <|
    .cons realizes_mandatory <|
    .cons realizes_mandatory <|
    .cons (realizes_optional schema.default rfl) <|
    .cons (realizes_optional schema.default rfl) <|
    .cons (realizes_defaulted schema.default rfl rfl) <|
    .cons (realizes_defaulted schema.default rfl rfl) <|
    .cons (realizes_defaulted schema.default rfl rfl) <|
    .cons (realizes_defaulted schema.default rfl rfl) <|
    .cons (realizes_defaulted schema.default rfl rfl) <|
    .cons (realizes_defaulted schema.default rfl rfl) .nil

theorem Toolchain.realizes_documentRules :
    List.Forall₂ Realizes documentRules documentSchema.fields := by
  refine .cons (realizes_of_demand (fun _ _ _ => rfl) ?_) .nil
  simp [Field.demand, FieldRule.demand, Field.mandatory, FieldRule.mandatory, Field.names]

/-! ## Flag groups -/

namespace FlagGroup

variable {levels : Nat}

/-- With some levels left, a flag group is read by a schema that reads nested groups like any list
of flag groups. -/
theorem exists_reader (levels : Nat) : ∃ reader : Codec (List FlagGroup),
    (∀ json, reader.read levels json = codec.list.read levels json) ∧
      ∀ json, readAt (levels + 1) json = (schemaOver reader).read (levels + 1) json := by
  cases levels with
  | zero =>
      -- no array can be opened, so it does not matter what its items would be
      let read : Nat → Json → Except ReadError FlagGroup := fun _ _ => .error (.fault .malformed)
      refine ⟨⟨Codec.readList read, fun _ => .null⟩, fun json => ?_, fun _ => rfl⟩
      cases json <;> rfl
  | succ levels =>
      refine ⟨⟨Codec.readList fun _ => readAt levels, fun _ => .null⟩, fun json => ?_, fun _ => rfl⟩
      cases json <;> rfl

/-- A member is readable or not by how nested groups are read with the levels that are left. -/
theorem readable_of_reader {first second : Codec (List FlagGroup)} {member : Literal × Json}
    (hread : ∀ json, second.read levels json = first.read levels json)
    (hmember : (schemaOver first).Readable levels member) :
    (schemaOver second).Readable levels member := by
  obtain ⟨⟨hknown, hunknown⟩, hnamed⟩ := hmember
  simp only [schemaOver, List.forall_mem_cons, Field.defaulted, Field.mandatory, Field.names]
    at hknown hunknown
  refine ⟨⟨?_, ?_⟩, hnamed⟩
  · simpa only [schemaOver, List.forall_mem_cons, Field.defaulted, Field.mandatory, Field.names,
      hread] using hknown
  · simpa only [schemaOver, List.forall_mem_cons, Field.defaulted, Field.mandatory, Field.names]
      using hunknown

end FlagGroup

/-! ## All types of records -/

namespace RecordType

/-- The schema of a type of records. -/
def schema : (type : RecordType) → Schema type.Value
  | makeVariable => MakeVariable.schema
  | toolPath => ToolPath.schema
  | artifactNamePattern => ArtifactNamePattern.schema
  | variableWithValue => VariableWithValue.schema
  | withFeatureSet => WithFeatureSet.schema
  | featureSet => FeatureSet.schema
  | envEntry => EnvEntry.schema
  | envSet => EnvSet.schema
  | flagGroup => FlagGroup.schemaOver FlagGroup.codec.list
  | flagSet => FlagSet.schema
  | feature => Feature.schema
  | tool => Tool.schema
  | actionConfig => ActionConfig.schema
  | toolchain => Toolchain.schema
  | document => Toolchain.documentSchema

/-- The rules of the format for a type of records. -/
def rules : (type : RecordType) → List (FieldRule type.Value)
  | makeVariable => MakeVariable.rules
  | toolPath => ToolPath.rules
  | artifactNamePattern => ArtifactNamePattern.rules
  | variableWithValue => VariableWithValue.rules
  | withFeatureSet => WithFeatureSet.rules
  | featureSet => FeatureSet.rules
  | envEntry => EnvEntry.rules
  | envSet => EnvSet.rules
  | flagGroup => FlagGroup.rulesOver FlagGroup.spelling.list
  | flagSet => FlagSet.rules
  | feature => Feature.rules
  | tool => Tool.rules
  | actionConfig => ActionConfig.rules
  | toolchain => Toolchain.rules
  | document => Toolchain.documentRules

/-- A schema by which records of a type are read with some levels left. -/
structure ReadBy (type : RecordType) (levels : Nat) (schema : Schema type.Value) : Prop where
  read_eq : ∀ json, type.codec.read (levels + 1) json = schema.read (levels + 1) json
  nodup_names : (schema.fields.flatMap Field.names).Nodup
  realizes : List.Forall₂ Realizes type.rules schema.fields
  readable : ∀ member, type.schema.Readable levels member → schema.Readable levels member

theorem exists_readBy (levels : Nat) : (type : RecordType) → ∃ schema, type.ReadBy levels schema
  | makeVariable =>
      ⟨_, fun _ => rfl, MakeVariable.lawful.nodup_names, MakeVariable.realizes, fun _ => id⟩
  | toolPath => ⟨_, fun _ => rfl, ToolPath.lawful.nodup_names, ToolPath.realizes, fun _ => id⟩
  | artifactNamePattern =>
      ⟨_, fun _ => rfl, ArtifactNamePattern.lawful.nodup_names, ArtifactNamePattern.realizes,
        fun _ => id⟩
  | variableWithValue =>
      ⟨_, fun _ => rfl, VariableWithValue.lawful.nodup_names, VariableWithValue.realizes,
        fun _ => id⟩
  | withFeatureSet =>
      ⟨_, fun _ => rfl, WithFeatureSet.lawful.nodup_names, WithFeatureSet.realizes, fun _ => id⟩
  | featureSet =>
      ⟨_, fun _ => rfl, FeatureSet.lawful.nodup_names, FeatureSet.realizes, fun _ => id⟩
  | envEntry => ⟨_, fun _ => rfl, EnvEntry.lawful.nodup_names, EnvEntry.realizes, fun _ => id⟩
  | envSet => ⟨_, fun _ => rfl, EnvSet.lawful.nodup_names, EnvSet.realizes, fun _ => id⟩
  | flagGroup => by
      obtain ⟨reader, hreader, hread⟩ := FlagGroup.exists_reader levels
      exact ⟨_, hread, FlagGroup.nodup_names reader, FlagGroup.realizes _ reader,
        fun _ => FlagGroup.readable_of_reader hreader⟩
  | flagSet => ⟨_, fun _ => rfl, FlagSet.lawful.nodup_names, FlagSet.realizes, fun _ => id⟩
  | feature => ⟨_, fun _ => rfl, Feature.lawful.nodup_names, Feature.realizes, fun _ => id⟩
  | tool => ⟨_, fun _ => rfl, Tool.lawful.nodup_names, Tool.realizes, fun _ => id⟩
  | actionConfig =>
      ⟨_, fun _ => rfl, ActionConfig.lawful.nodup_names, ActionConfig.realizes, fun _ => id⟩
  | toolchain => ⟨_, fun _ => rfl, Toolchain.lawful.nodup_names, Toolchain.realizes, fun _ => id⟩
  | document =>
      ⟨_, fun _ => rfl, Toolchain.lawful_documentSchema.nodup_names,
        Toolchain.realizes_documentRules, fun _ => id⟩

/-- A text is read like the tree of which it is a text. -/
theorem readText_eq_read (type : RecordType) {json : Json} {text : String}
    (htext : text.toList ∈ json.texts) :
    type.codec.readText text = type.codec.read maxDepth json := by
  rw [Codec.readText, Document.ofText_of_mem_texts htext, Codec.readDocument]
  show (type.codec.read maxDepth json).bind _ = _
  cases type.codec.read maxDepth json <;> rfl

/-- **Objects are refused for the right field.**  An object whose members are readable with the
levels that it leaves them is read as a record, unless a field is given twice or one that has to be
given is not. -/
theorem verdict_read_object (type : RecordType) {levels : Nat} {members : List (Literal × Json)}
    (hmembers : ∀ member ∈ members, type.schema.Readable levels member) :
    Verdict (type.rules.map FieldRule.demand) members
        (type.codec.read (levels + 1) (.object members none)) ∧
      ∀ text : String, levels + 1 = maxDepth → text.toList ∈ (Json.object members none).texts →
        Verdict (type.rules.map FieldRule.demand) members (type.codec.readText text) := by
  have hverdict : Verdict (type.rules.map FieldRule.demand) members
      (type.codec.read (levels + 1) (.object members none)) := by
    obtain ⟨schema, hread, hnames, hrealizes, hreadable⟩ := type.exists_readBy levels
    rw [hread, ← map_demand_of_realizes hrealizes]
    refine schema.verdict_readObject (readsAnywhere_of_realizes hrealizes) hnames ?_
    intro member hmember
    exact hreadable member (hmembers member hmember)
  refine ⟨hverdict, fun text hlevels htext => ?_⟩
  rw [type.readText_eq_read htext, ← hlevels]
  exact hverdict

/-- The members of a feature: a list of flag sets under both of its names, a flag given twice, a
member that belongs to no field and holds half of a character, and no name. -/
def repeatedFlagSets : List (Literal × Json) := [
  (.ofString "flag_set", .array [] none),
  (.ofString "enabled", .bool true),
  (.ofString "comment", .string ⟨[.surrogate 0xD800], none⟩),
  (.ofString "flag_sets", .array [] none),
  (.ofString "enabled", .bool false)]

theorem verdict_read_object_repeatedFlagSets :
    (∀ member ∈ repeatedFlagSets, Feature.schema.Readable 126 member) ∧
      Verdict (Feature.rules.map FieldRule.demand) repeatedFlagSets
        (Feature.schema.codec.read maxDepth (.object repeatedFlagSets none)) ∧
      Feature.schema.codec.read maxDepth (.object repeatedFlagSets none) =
        .error (.repeatedField "flag_sets") := by
  have hmembers : ∀ member ∈ repeatedFlagSets, Feature.schema.Readable 126 member := by
    unfold repeatedFlagSets
    simp only [List.forall_mem_cons]
    refine ⟨?_, ?_, ?_, ?_, ?_, List.forall_mem_nil _⟩
    · exact Schema.readable_of_isOk (by decide) (by decide)
    · exact Schema.readable_of_isOk (by decide) (by decide)
    · exact Schema.readable_of_unknown (by decide) (.string _)
    · exact Schema.readable_of_isOk (by decide) (by decide)
    · exact Schema.readable_of_isOk (by decide) (by decide)
  exact ⟨hmembers, (verdict_read_object .feature hmembers).1, by decide +kernel⟩

/-- Flag groups that are nested in each other. -/
def groupsInGroups : Nat → List FlagGroup
  | 0 => []
  | depth + 1 => [⟨[], groupsInGroups depth, none, [], [], none, none, none⟩]

/-- A list of toolchains that takes all the levels of a text. -/
def deeplyNested : Json :=
  Toolchain.schema.codec.list.write [{ (default : Toolchain) with
    features := [⟨"f", false, [⟨[], [], groupsInGroups 60⟩], [], [], [], []⟩] }]

/-- The only member of a document is readable if it holds toolchains. -/
theorem readable_toolchain {levels : Nat} {value : Json} {toolchains : List Toolchain}
    (hvalue : Toolchain.schema.codec.list.read levels value = .ok toolchains) :
    Toolchain.documentSchema.Readable levels (.ofString "toolchain", value) where
  named := ⟨"toolchain", Literal.says_ofString _⟩
  known := by
    refine List.forall_mem_singleton.mpr fun _ => ⟨toolchains, ?_⟩
    show (Toolchain.schema.codec.list.read levels value).map _ = _
    rw [hvalue]
    rfl
  unknown hunknown :=
    absurd ⟨"toolchain", List.mem_cons_self .., Literal.says_ofString _⟩
      (hunknown _ (List.mem_singleton_self _))

/-- It gives all that a document has to give. -/
theorem given_toolchain (value : Json) :
    ∀ demand ∈ Toolchain.documentRules.map FieldRule.demand,
      Given demand.names [(.ofString "toolchain", value)] := by
  refine List.forall_mem_singleton.mpr ?_
  exact ⟨_, List.mem_singleton_self _, "toolchain", List.mem_cons_self .., Literal.says_ofString _⟩

/-- The members of a feature: one whose name is half of a character, and the name. -/
def unnamedMember : List (Literal × Json) := [
  (⟨[.surrogate 0xD800], none⟩, .null),
  (.ofString "name", .string (.ofString "x"))]

theorem not_givenBy_surrogate {names : List String} {unit : Nat} {value : Json} :
    ¬ GivenBy names (⟨[.surrogate unit], none⟩, value) := by
  rintro ⟨_, _, hsays⟩
  exact Literal.not_says_surrogate hsays

theorem readableValue_unnamedMember :
    ∀ member ∈ unnamedMember, Feature.schema.ReadableValue 126 member := by
  refine List.forall_mem_cons.mpr ⟨?_, List.forall_mem_singleton.mpr ?_⟩
  · exact Schema.readableValue_of_unknown (fun _ _ => not_givenBy_surrogate) .null
  · exact (Schema.readable_of_isOk (by decide) (by decide)).toReadableValue

theorem wellFormed_unnamedMember : (Json.object unnamedMember none).WellFormed :=
  .object (List.forall_mem_cons.mpr ⟨rfl, List.forall_mem_singleton.mpr rfl⟩)
    (List.forall_mem_cons.mpr ⟨.null, List.forall_mem_singleton.mpr (.string _)⟩)

/-- No field is given twice by them. -/
theorem not_givenTwice_unnamedMember {names : List String} :
    ¬ GivenTwice names unnamedMember := by
  have hsplit : unnamedMember = [unnamedMember[0]] ++ [unnamedMember[1]] := rfl
  rw [hsplit, givenTwice_concat]
  rintro (htwice | ⟨⟨member, hmember, hgives⟩, _⟩)
  · exact not_givenTwice_singleton htwice
  · obtain rfl := List.mem_singleton.mp hmember
    exact not_givenBy_surrogate hgives

/-- They give all that a feature has to give. -/
theorem given_unnamedMember :
    ∀ demand ∈ Feature.rules.map FieldRule.demand, demand.mandatory →
      Given demand.names unnamedMember := by
  have hrequired : ∀ field ∈ Feature.schema.fields, field.required = true →
      "name" ∈ field.names := by decide
  rw [← map_demand_of_realizes Feature.realizes]
  refine List.forall_mem_map.mpr fun field hfield hmandatory => ?_
  exact ⟨_, List.mem_cons_of_mem _ (List.mem_singleton_self _), "name",
    hrequired field hfield hmandatory, Literal.says_ofString _⟩

/-- Members that are readable each as a text of its own need not be so in an object, and members
with readable values need not have names that decode. -/
theorem not_forall_readable_alone :
    (¬ ∀ (type : RecordType) (members : List (Literal × Json)),
      (∀ member ∈ members, type.schema.Readable maxDepth member) →
        Verdict (type.rules.map FieldRule.demand) members
          (type.codec.read maxDepth (.object members none))) ∧
    ¬ ∀ (type : RecordType) (members : List (Literal × Json)),
      (∀ member ∈ members, type.schema.ReadableValue 126 member) →
      (Json.object members none).WellFormed →
        Verdict (type.rules.map FieldRule.demand) members
          (type.codec.read maxDepth (.object members none)) := by
  constructor
  · intro hall
    have hdepth : deeplyNested.depth ≤ maxDepth := by decide +kernel
    have hmember := readable_toolchain (Toolchain.lawful.codec.list.read_write _ maxDepth hdepth)
    have hfails : Toolchain.documentSchema.codec.read maxDepth
        (.object [(.ofString "toolchain", deeplyNested)] none) = .error (.fault .malformed) := by
      decide +kernel
    have hverdict := hall .document _ (List.forall_mem_singleton.mpr hmember)
    exact hverdict.not_fails (fun _ _ => not_givenTwice_singleton)
      (fun demand hdemand _ => given_toolchain _ demand hdemand) ⟨_, hfails⟩
  · intro hall
    have hfails : ∃ error, Feature.schema.readObject 126 unnamedMember none = .error error :=
      Schema.exists_error_of_not_says (List.mem_cons_self ..)
        (fun _ => Literal.not_says_surrogate)
    have hverdict := hall .feature _ readableValue_unnamedMember wellFormed_unnamedMember
    exact hverdict.not_fails (fun _ _ => not_givenTwice_unnamedMember) given_unnamedMember hfails

end RecordType

end ToolchainMerge
