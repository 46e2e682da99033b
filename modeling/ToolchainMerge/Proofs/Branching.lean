import ToolchainMerge.Proofs.Statements

/-!
# How many branches a statement has

Values are compared as values of the toolchains, before they are written.  A statement for a
field or a feature is none the worse for it: what is written tells the values apart, so it
branches as little as the expressions allow (`Minimal`).

The declaration of an action config has one branch for each config (`OnePerConfig`).  Two
configs may differ in their config name alone, or in an empty tool path where the other has
the placeholder.  Then both branches assign one expression, and the declaration branches
although nothing depends on the branch (`not_forall_minimal`).

`branching_of_ofToolchains` is the main statement.
-/

namespace ToolchainMerge

open Starlark

/-! ## As few branches as expressions -/

/-- The choice among some expressions branches as little as possible: there is one branch for
each expression, and none is needed if the expressions agree. -/
structure Minimal (choice : Choice) (given : List Expr) : Prop where
  nodup : choice.values.Nodup
  values_eq : choice.values = given.eraseDups
  isConstant_iff : choice.isConstant = true ↔ ∀ first ∈ given, ∀ second ∈ given, first = second

/-- The choice among some action configs has one branch for each of them.  Branches of two
configs assign one expression if the configs agree in what is written. -/
structure OnePerConfig (choice : Choice) (configs : List ActionConfig) : Prop where
  values_eq : choice.values = configs.eraseDups.map ActionConfig.toExpr
  isConstant_iff : choice.isConstant = true ↔
    ∀ first ∈ configs, ∀ second ∈ configs, first = second
  same_iff : ∀ first ∈ configs, ∀ second ∈ configs,
    first.toExpr = second.toExpr ↔ first.written = second.written

namespace Choice

variable {α : Type} [DecidableEq α] {toExpr : α → Expr} {entries : List (Key × α)}
  {coverage : Coverage}

/-- A merged choice is constant exactly when its values agree. -/
theorem isConstant_merging_iff (hentries : entries ≠ []) :
    (merging toExpr entries coverage).isConstant = true ↔
      ∀ first ∈ entries.map (·.2), ∀ second ∈ entries.map (·.2), first = second := by
  have hpositive : 0 < (entries.map (·.2)).eraseDups.length := by
    rw [List.length_pos_iff]
    obtain ⟨entry, hentry⟩ := List.exists_mem_of_ne_nil entries hentries
    exact List.ne_nil_of_mem (List.mem_eraseDups.mpr (List.mem_map_of_mem hentry))
  rw [isConstant_merging, decide_eq_true_iff, ← length_eraseDups_le_one_iff]
  omega

theorem minimal_merging (hentries : entries ≠ [])
    (hinj : ∀ first ∈ entries.map (·.2), ∀ second ∈ entries.map (·.2),
      toExpr first = toExpr second → first = second) :
    Minimal (merging toExpr entries coverage) ((entries.map (·.2)).map toExpr) := by
  have hvalues : (merging toExpr entries coverage).values =
      ((entries.map (·.2)).map toExpr).eraseDups := by
    rw [values_merging, eraseDups_map_of_injOn hinj]
  refine ⟨?_, hvalues, ?_⟩
  · rw [hvalues]
    exact nodup_eraseDups _
  · rw [isConstant_merging_iff hentries]
    generalize entries.map (·.2) = values at hinj
    constructor
    · intro hsame first hfirst second hsecond
      obtain ⟨value, hvalue, rfl⟩ := List.mem_map.mp hfirst
      obtain ⟨other, hother, rfl⟩ := List.mem_map.mp hsecond
      rw [hsame value hvalue other hother]
    · intro hsame value hvalue other hother
      exact hinj value hvalue other hother
        (hsame _ (List.mem_map_of_mem hvalue) _ (List.mem_map_of_mem hother))

end Choice

/-! ## What a toolchain gives to a statement -/

namespace Rule

/-- The expression that a toolchain gives to the statement of a role for a variable, if it has
a value for it. -/
def given? : Role → String → Toolchain → Option Expr
  | .field, target, toolchain =>
      (Toolchain.fieldValues.find? fun field => field.1 = target).map fun field =>
        field.2 toolchain
  | .declaration .actionConfig, target, toolchain =>
      (Family.actionConfigs.itemFor? target toolchain).map ActionConfig.toExpr
  | .declaration .feature, target, toolchain =>
      (Family.features.itemFor? target toolchain).map Feature.toExpr

variable {toolchains : List Toolchain} {rule : Rule}

theorem given?_field {field : String × (Toolchain → Expr)}
    (hfield : field ∈ Toolchain.fieldValues) (toolchain : Toolchain) :
    given? .field field.1 toolchain = some (field.2 toolchain) := by
  have hnodup : (Toolchain.fieldValues.map (·.1)).Nodup := by decide
  rw [given?, find?_eq_of_nodup_map hnodup hfield]
  rfl

end Rule

namespace Family

variable {α : Type} (family : Family α) {toolchains : List Toolchain}

theorem map_definitions_eq (hstems : DistinctStems (family.names toolchains)) {name : String}
    (hname : name ∈ family.names toolchains) :
    (family.definitions name toolchains).map (·.2) =
      toolchains.filterMap (family.itemFor? (family.identifier name)) := by
  rw [family.definitions_eq hstems hname, List.map_filterMap]
  refine List.filterMap_congr fun toolchain _ => ?_
  rw [Option.map_map]
  exact Option.map_id'

theorem mem_items_of_itemFor? {variableName : String} {item : α}
    (hitem : item ∈ toolchains.filterMap (family.itemFor? variableName)) :
    ∃ toolchain ∈ toolchains, item ∈ family.items toolchain := by
  obtain ⟨toolchain, htoolchain, hfind⟩ := List.mem_filterMap.mp hitem
  exact ⟨toolchain, htoolchain, List.mem_of_find?_eq_some hfind⟩

end Family

/-! ## Rules -/

namespace Rule

variable {toolchains : List Toolchain} {rule : Rule}

theorem minimal_fieldAssignment (htoolchains : toolchains ≠ [])
    {field : String × (Toolchain → Expr)} (hfield : field ∈ Toolchain.fieldValues) :
    Minimal (Toolchain.fieldAssignment toolchains field).choice
      (toolchains.filterMap (given? .field field.1)) := by
  have hgiven : toolchains.filterMap (given? .field field.1) =
      ((toolchains.map fun toolchain => (toolchain.key, field.2 toolchain)).map (·.2)).map id := by
    rw [List.map_id, List.map_map, ← List.filterMap_eq_map]
    exact List.filterMap_congr fun toolchain _ => given?_field hfield toolchain
  rw [hgiven]
  exact Choice.minimal_merging (by simpa using htoolchains) fun _ _ _ _ => id

theorem minimal_itemAssignment_feature
    (hwellFormed : ∀ toolchain ∈ toolchains, toolchain.WellFormed)
    (hstems : DistinctStems (Family.features.names toolchains)) {name : String}
    (hname : name ∈ Family.features.names toolchains) :
    Minimal (Family.features.itemAssignment toolchains name).choice
      (toolchains.filterMap
        (given? (.declaration .feature) (Family.features.identifier name))) := by
  have hgiven : toolchains.filterMap
      (given? (.declaration .feature) (Family.features.identifier name)) =
        ((Family.features.definitions name toolchains).map (·.2)).map Feature.toExpr := by
    rw [Family.features.map_definitions_eq hstems hname, List.map_filterMap]
    rfl
  have hplain : ∀ feature ∈ (Family.features.definitions name toolchains).map (·.2),
      FlagSet.AllPlain feature.flagSets := by
    intro feature hfeature
    rw [Family.features.map_definitions_eq hstems hname] at hfeature
    obtain ⟨toolchain, htoolchain, hitem⟩ := Family.features.mem_items_of_itemFor? hfeature
    exact (hwellFormed toolchain htoolchain).plain_features feature hitem
  rw [hgiven]
  refine Choice.minimal_merging (Family.features.definitions_ne_nil hname) ?_
  exact fun first hfirst second hsecond => Feature.toExpr_inj (hplain first hfirst)
    (hplain second hsecond)

theorem onePerConfig_itemAssignment
    (hwellFormed : ∀ toolchain ∈ toolchains, toolchain.WellFormed)
    (hstems : DistinctStems (Family.actionConfigs.names toolchains)) {name : String}
    (hname : name ∈ Family.actionConfigs.names toolchains) :
    OnePerConfig (Family.actionConfigs.itemAssignment toolchains name).choice
      (toolchains.filterMap
        (Family.actionConfigs.itemFor? (Family.actionConfigs.identifier name))) := by
  have hplain : ∀ config ∈ toolchains.filterMap
      (Family.actionConfigs.itemFor? (Family.actionConfigs.identifier name)),
        FlagSet.AllPlain config.flagSets := by
    intro config hconfig
    obtain ⟨toolchain, htoolchain, hitem⟩ := Family.actionConfigs.mem_items_of_itemFor? hconfig
    exact (hwellFormed toolchain htoolchain).plain_actionConfigs config hitem
  have hne := Family.actionConfigs.definitions_ne_nil hname
  have hconfigs := Family.actionConfigs.map_definitions_eq hstems hname
  refine ⟨?_, ?_, fun first hfirst second hsecond => ?_⟩
  · rw [← hconfigs]
    exact Choice.values_merging
  · rw [← hconfigs]
    exact Choice.isConstant_merging_iff hne
  · exact ActionConfig.toExpr_eq_iff (hplain first hfirst) (hplain second hsecond)

/-- **How merged rules branch.**  A statement for a field or a feature branches as little as
the expressions allow.  The declaration of an action config has one branch for each config of
its action. -/
theorem branching_of_ofToolchains (hmerge : ofToolchains toolchains = .ok rule) {role : Role}
    {assignment : Assignment} (hstatement : (role, assignment) ∈ rule.statements) :
    (role ≠ .declaration .actionConfig →
      Minimal assignment.choice (toolchains.filterMap (given? role assignment.target))) ∧
    (role = .declaration .actionConfig →
      OnePerConfig assignment.choice
        (toolchains.filterMap (Family.actionConfigs.itemFor? assignment.target))) := by
  obtain ⟨hvalid, hconfigs, hfeatures, rfl⟩ := ofToolchains_eq_ok_iff.mp hmerge
  obtain ⟨hne, _, hwellFormed⟩ := validate_eq_ok_iff.mp hvalid
  cases role with
  | field =>
      obtain ⟨field, hfield, rfl⟩ := mem_statements_field.mp hstatement
      exact ⟨fun _ => minimal_fieldAssignment hne hfield, fun hrole => (nomatch hrole)⟩
  | declaration kind =>
      cases kind with
      | actionConfig =>
          obtain ⟨name, hname, rfl⟩ := mem_statements_actionConfig.mp hstatement
          exact ⟨fun hrole => absurd rfl hrole,
            fun _ => onePerConfig_itemAssignment hwellFormed hconfigs hname⟩
      | feature =>
          obtain ⟨name, hname, rfl⟩ := mem_statements_feature.mp hstatement
          exact ⟨fun _ => minimal_itemAssignment_feature hwellFormed hfeatures hname,
            fun hrole => (nomatch hrole)⟩

/-- Two toolchains that configure one action alike, under different config names. -/
def renamedConfig : List Toolchain :=
  [{ (default : Toolchain) with
      targetCpu := "k8", actionConfigs := [⟨"compile", "c-compile", true, [], [], []⟩] },
    { (default : Toolchain) with
      targetCpu := "arm", actionConfigs := [⟨"compiler", "c-compile", true, [], [], []⟩] }]

theorem branching_of_ofToolchains_renamedConfig :
    ofToolchains renamedConfig = .ok (merged renamedConfig) ∧
      (.declaration .actionConfig,
        Family.actionConfigs.itemAssignment renamedConfig "c-compile") ∈
          (merged renamedConfig).statements ∧
      OnePerConfig (Family.actionConfigs.itemAssignment renamedConfig "c-compile").choice
        (renamedConfig.filterMap (Family.actionConfigs.itemFor? "c_compile_action")) :=
  have hmerge : ofToolchains renamedConfig = .ok (merged renamedConfig) := by rfl
  have hstatement : (.declaration .actionConfig,
      Family.actionConfigs.itemAssignment renamedConfig "c-compile") ∈
        (merged renamedConfig).statements := by decide +kernel
  ⟨hmerge, hstatement, (branching_of_ofToolchains hmerge hstatement).2 rfl⟩

/-- Not every statement branches as little as possible: the renamed config is declared by two
branches that assign one expression. -/
theorem not_forall_minimal :
    ¬ ∀ (toolchains : List Toolchain) (rule : Rule), ofToolchains toolchains = .ok rule →
      ∀ statement ∈ rule.statements, Minimal statement.2.choice
        (toolchains.filterMap (given? statement.1 statement.2.target)) := by
  intro hminimal
  have hmerge : ofToolchains renamedConfig = .ok (merged renamedConfig) := by rfl
  have hstatement : (.declaration .actionConfig,
      Family.actionConfigs.itemAssignment renamedConfig "c-compile") ∈
        (merged renamedConfig).statements := by decide +kernel
  have hnodup := (hminimal _ _ hmerge _ hstatement).nodup
  revert hnodup
  decide +kernel

end Rule

end ToolchainMerge
