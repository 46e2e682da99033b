import ToolchainMerge.Proofs.Identifier
import ToolchainMerge.Proofs.Reproduction

/-!
# Names in the body of a rule

Features and actions have arbitrary names, and the body makes variables of them in a function
that already has a parameter, sixteen fields and the names of the file.  Since a variable of a
function is local everywhere in it, one clash would break the whole file.  `Rule.Hygienic` says
that there is none, and that everything is defined before it is read.

## Strategy

* That the variables differ from each other and from the reserved names is known from their
  suffixes (`nodup_targets_merged`, `target_not_mem_reserved`).
* A value that is not a list of variables uses what the file loads.  A list of variables stands
  behind the declarations of its kind.  As the variables differ, the place of a statement is
  determined by its variable (`declared_before`).
* A field that is returned has a statement which must yield a value, so a run that ends has
  given it one (`isSome_of_run`).

`hygienic_of_ofToolchains` is the main statement.
-/

namespace ToolchainMerge

open Starlark

/-- The field that lists the items of a kind. -/
def ItemKind.listField : ItemKind → String
  | .feature => "features"
  | .actionConfig => "action_configs"

namespace Rule

/-- A variable that some earlier statements declare for the list field `target`: it is declared
as an item of the kind that the field lists. -/
def DeclaredFor (target : String) (before : List (Role × Assignment)) (name : String) : Prop :=
  ∃ (kind : ItemKind) (declaration : Assignment), target = kind.listField ∧
    (Role.declaration kind, declaration) ∈ before ∧ declaration.target = name

/-- A rule in whose body no name is captured and none is read before it is defined. -/
structure Hygienic (rule : Rule) : Prop where
  nodup_targets : (rule.assignments.map (·.target)).Nodup
  /-- Looking a variable up finds its only assignment. -/
  assignment?_target : ∀ assignment ∈ rule.assignments,
    rule.assignment? assignment.target = some assignment
  /-- The variable of an item is an identifier of lower-case letters, digits and underscores
  that ends in the suffix of its kind. -/
  declared_target : ∀ kind assignment, (Role.declaration kind, assignment) ∈ rule.statements →
    isLowerIdentifier assignment.target.toList = true ∧
      kind.suffix.toList <:+ assignment.target.toList
  target_free : ∀ assignment ∈ rule.assignments,
    assignment.target ∉ ["ctx", "out", "fail", "ACTION_NAMES"] ++ constructors
  /-- The values of a statement call constructors, and they read constants of standard actions
  or variables of the kind that the field lists, declared by the statements before. -/
  built : ∀ before role assignment after,
    rule.statements = before ++ (role, assignment) :: after →
      ∀ value ∈ assignment.choice.values, value.BuiltFrom (· ∈ constructors)
        (fun name => ActionName.IsConstant name ∨ DeclaredFor assignment.target before name)
        (· ∈ keywords)
  /-- Every field that is returned is a variable of a statement of its own. -/
  provided : ∀ field ∈ providedFields, ∃ assignment,
    (Role.field, assignment) ∈ rule.statements ∧ assignment.target = field
  /-- When the body has been executed, every field that is returned has a value. -/
  bound : ∀ key bindings, rule.run key = .ok bindings →
    ∀ field ∈ providedFields, (bindings field).isSome

/-! ## Variables -/

variable {toolchains : List Toolchain} {rule : Rule}

theorem assignment?_of_mem (hnodup : (rule.assignments.map (·.target)).Nodup)
    {assignment : Assignment} (hassignment : assignment ∈ rule.assignments) :
    rule.assignment? assignment.target = some assignment :=
  find?_eq_of_nodup_map hnodup hassignment

theorem declared_target_merged {kind : ItemKind} {assignment : Assignment}
    (hstatement : (.declaration kind, assignment) ∈ (merged toolchains).statements) :
    isLowerIdentifier assignment.target.toList = true ∧
      kind.suffix.toList <:+ assignment.target.toList := by
  cases kind with
  | actionConfig =>
      obtain ⟨name, _, rfl⟩ := mem_statements_actionConfig.mp hstatement
      exact ⟨Family.actionConfigs.isLowerIdentifier_identifier name,
        Family.actionConfigs.suffix_isSuffix_identifier name⟩
  | feature =>
      obtain ⟨name, _, rfl⟩ := mem_statements_feature.mp hstatement
      exact ⟨Family.features.isLowerIdentifier_identifier name,
        Family.features.suffix_isSuffix_identifier name⟩

/-! ## The place of a statement -/

/-- The list field of a kind with the declarations of its items. -/
def declaredField (rule : Rule) : ItemKind → DeclaredField
  | .feature => rule.features
  | .actionConfig => rule.actionConfigs

theorem exists_statements_eq (rule : Rule) (kind : ItemKind) :
    ∃ before after : List (Role × Assignment), rule.statements =
        before ++ (Role.field, (rule.declaredField kind).references) :: after ∧
      ∀ declaration ∈ (rule.declaredField kind).declarations,
        (Role.declaration kind, declaration) ∈ before := by
  have hdeclared : ∀ (others : List (Role × Assignment)) (field : DeclaredField),
      ∀ declaration ∈ field.declarations, (Role.declaration kind, declaration) ∈
        others ++ field.declarations.map (Role.declaration kind, ·) := fun _ _ _ hdeclaration =>
    List.mem_append_right _ (List.mem_map_of_mem hdeclaration)
  cases kind with
  | actionConfig =>
      have hstatements : rule.statements =
          (rule.texts.map (Role.field, ·) ++
            rule.actionConfigs.declarations.map (Role.declaration .actionConfig, ·)) ++
          (Role.field, rule.actionConfigs.references) ::
            (declaredStatements .feature rule.features ++ rule.lists.map (Role.field, ·)) := by
        simp only [statements, declaredStatements, List.append_assoc, List.cons_append,
          List.nil_append]
      exact ⟨_, _, hstatements, hdeclared _ rule.actionConfigs⟩
  | feature =>
      have hstatements : rule.statements =
          (rule.texts.map (Role.field, ·) ++ declaredStatements .actionConfig rule.actionConfigs ++
            rule.features.declarations.map (Role.declaration .feature, ·)) ++
          (Role.field, rule.features.references) :: rule.lists.map (Role.field, ·) := by
        simp only [statements, declaredStatements, List.append_assoc, List.cons_append,
          List.nil_append]
      exact ⟨_, _, hstatements, hdeclared _ rule.features⟩

/-- **Declarations come first.**  Wherever the list field of a kind stands, all items of that
kind have been declared before. -/
theorem declared_before (hnodup : (rule.assignments.map (·.target)).Nodup) (kind : ItemKind)
    {before after : List (Role × Assignment)} (hstatements : rule.statements =
      before ++ (.field, (rule.declaredField kind).references) :: after) :
    ∀ declaration ∈ (rule.declaredField kind).declarations,
      (.declaration kind, declaration) ∈ before := by
  obtain ⟨before', after', hstatements', hdeclared⟩ := rule.exists_statements_eq kind
  -- a statement stands at one place, since no other one assigns its variable
  have honce : rule.statements.Nodup := by
    rw [assignments, List.map_map] at hnodup
    exact List.Nodup.of_map _ hnodup
  rw [hstatements', List.nodup_middle, List.nodup_cons, List.mem_append, not_or] at honce
  rw [hstatements', List.append_cons_inj_of_notMem] at hstatements
  · exact hstatements.1 ▸ hdeclared
  · exact honce.1.1
  · exact honce.1.2

/-! ## Values -/

theorem values_fieldAssignment {field : String × (Toolchain → Expr)} {value : Expr}
    (hvalue : value ∈ (Toolchain.fieldAssignment toolchains field).choice.values) :
    ∃ toolchain ∈ toolchains, field.2 toolchain = value := by
  rw [Toolchain.fieldAssignment, Choice.values_merging, List.map_id, List.mem_eraseDups,
    List.map_map] at hvalue
  exact List.mem_map.mp hvalue

theorem loaded_of_mem_values_itemAssignment {α : Type} [DecidableEq α] {family : Family α}
    (hloaded : ∀ item, (family.toExpr item).Loaded) {name : String} {value : Expr}
    (hvalue : value ∈ (family.itemAssignment toolchains name).choice.values) : value.Loaded := by
  rw [Family.itemAssignment, Choice.values_merging] at hvalue
  obtain ⟨item, _, rfl⟩ := List.mem_map.mp hvalue
  exact hloaded item

theorem builtFrom_variableList {α : Type} [DecidableEq α] (family : Family α)
    {before : List (Role × Assignment)}
    (hbefore : ∀ declaration ∈ (family.declared family.kind.listField toolchains).declarations,
      (.declaration family.kind, declaration) ∈ before)
    {toolchain : Toolchain} (htoolchain : toolchain ∈ toolchains) :
    (family.variableList toolchain).BuiltFrom (· ∈ constructors)
      (fun name => ActionName.IsConstant name ∨ DeclaredFor family.kind.listField before name)
      (· ∈ keywords) := by
  refine .list (List.forall_mem_map.mpr fun item hitem => .ident (Or.inr ?_))
  have hname := family.name_mem_names htoolchain hitem
  exact ⟨family.kind, family.itemAssignment toolchains (family.name item), rfl,
    hbefore _ (List.mem_map_of_mem (List.mem_eraseDups.mpr hname)), rfl⟩

/-- **What is read has been defined.** -/
theorem built_merged (hnodup : ((merged toolchains).assignments.map (·.target)).Nodup)
    {before after : List (Role × Assignment)} {role : Role} {assignment : Assignment}
    (hstatements : (merged toolchains).statements = before ++ (role, assignment) :: after)
    {value : Expr} (hvalue : value ∈ assignment.choice.values) :
    value.BuiltFrom (· ∈ constructors)
      (fun name => ActionName.IsConstant name ∨ DeclaredFor assignment.target before name)
      (· ∈ keywords) := by
  have hstatement : (role, assignment) ∈ (merged toolchains).statements := by
    rw [hstatements]
    exact List.mem_append_right _ (List.mem_cons_self ..)
  have hloaded : value.Loaded → value.BuiltFrom (· ∈ constructors)
      (fun name => ActionName.IsConstant name ∨ DeclaredFor assignment.target before name)
      (· ∈ keywords) := fun hvalue => hvalue.mono (fun _ => id) (fun _ => Or.inl) fun _ => id
  cases role with
  | field =>
      obtain ⟨field, hfield, rfl⟩ := mem_statements_field.mp hstatement
      obtain ⟨toolchain, htoolchain, rfl⟩ := values_fieldAssignment hvalue
      rw [Toolchain.fieldValues, List.mem_append, List.mem_cons, List.mem_cons] at hfield
      rcases hfield with htext | rfl | rfl | hlist
      · exact hloaded (Toolchain.loaded_of_plain (List.mem_append_left _ htext) toolchain)
      · exact builtFrom_variableList Family.actionConfigs
          (declared_before hnodup .actionConfig hstatements) htoolchain
      · exact builtFrom_variableList Family.features
          (declared_before hnodup .feature hstatements) htoolchain
      · exact hloaded (Toolchain.loaded_of_plain (List.mem_append_right _ hlist) toolchain)
  | declaration kind =>
      cases kind with
      | actionConfig =>
          obtain ⟨name, _, rfl⟩ := mem_statements_actionConfig.mp hstatement
          exact hloaded (loaded_of_mem_values_itemAssignment ActionConfig.loaded_toExpr hvalue)
      | feature =>
          obtain ⟨name, _, rfl⟩ := mem_statements_feature.mp hstatement
          exact hloaded (loaded_of_mem_values_itemAssignment Feature.loaded_toExpr hvalue)

/-! ## Fields that are returned -/

theorem provided_merged {field : String} (hfield : field ∈ providedFields) :
    ∃ assignment, (Role.field, assignment) ∈ (merged toolchains).statements ∧
      assignment.target = field := by
  have hfields : ∀ field ∈ providedFields, field ∈ Toolchain.fieldValues.map (·.1) := by
    decide
  obtain ⟨value, hvalue, rfl⟩ := List.mem_map.mp (hfields field hfield)
  exact ⟨_, mem_statements_field.mpr ⟨value, hvalue, rfl⟩, rfl⟩

/-- **A run that ends has assigned every field.** -/
theorem isSome_of_run {key : Key} {bindings : Bindings}
    (hrun : (merged toolchains).run key = .ok bindings) {field : String}
    (hfield : field ∈ providedFields) : (bindings field).isSome := by
  obtain ⟨rfl, hvalues⟩ := Assignment.eq_foldl_assign_of_foldlM_execute hrun
  have hprovided : ∃ assignment, (Role.field, assignment) ∈ (merged toolchains).statements ∧
      assignment.target = field := provided_merged hfield
  obtain ⟨assignment, hstatement, rfl⟩ := hprovided
  have hassignment : assignment ∈ (merged toolchains).assignments :=
    List.mem_map.mpr ⟨_, hstatement, rfl⟩
  obtain ⟨value, _, rfl⟩ := mem_statements_field.mp hstatement
  exact Assignment.isSome_foldl_assign_of_mem hassignment
    (Choice.isSome_at?_merging (hvalues _ hassignment)) _

/-! ## The whole body -/

/-- **Merged rules are hygienic**, whatever their features and actions are called. -/
theorem hygienic_of_ofToolchains (hmerge : ofToolchains toolchains = .ok rule) :
    rule.Hygienic := by
  obtain ⟨_, hconfigs, hfeatures, rfl⟩ := ofToolchains_eq_ok_iff.mp hmerge
  have hnodup := nodup_targets_merged hconfigs hfeatures
  exact {
    nodup_targets := hnodup
    assignment?_target := fun _ => assignment?_of_mem hnodup
    declared_target := fun _ _ => declared_target_merged
    target_free := fun _ => target_not_mem_reserved
    built := fun _ _ _ _ hstatements _ => built_merged hnodup hstatements
    provided := fun _ => provided_merged
    bound := fun _ _ hrun _ => isSome_of_run hrun
  }

/-- Items without a name, with a digit in front, and named like a field, a constructor and a
constant of an action. -/
def oddlyNamed : List Toolchain :=
  [{ (default : Toolchain) with
      targetCpu := "k8", actionConfigs := [⟨"", "c++-compile", true, [], [], []⟩],
      features := [⟨"", true, [], [], [], [], []⟩, ⟨"7zip", true, [], [], [], [], []⟩] },
    { (default : Toolchain) with
      targetCpu := "arm", actionConfigs := [⟨"", "features", true, [], [], []⟩],
      features := [⟨"tool", false, [], [], [], [], []⟩,
        ⟨"ACTION_NAMES.strip", false, [], [], [], [], []⟩] }]

theorem hygienic_oddlyNamed :
    ofToolchains oddlyNamed = .ok (merged oddlyNamed) ∧ (merged oddlyNamed).Hygienic :=
  have hmerge : ofToolchains oddlyNamed = .ok (merged oddlyNamed) := by rfl
  ⟨hmerge, hygienic_of_ofToolchains hmerge⟩

end Rule

end ToolchainMerge
