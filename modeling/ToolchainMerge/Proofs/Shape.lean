import ToolchainMerge.Proofs.Statements

/-!
# The shape of a rule

A rule is written down without looking at its statements again, so they have to come in a shape
that can be written: an `else` needs an `if` before it, a condition needs a test, and a variable
has to be declared before a list refers to it.  `Rule.WellShaped` lists what is relied on.

## Strategy

* A choice among classes has its shape from the keys that the classes divide up
  (`Choice.shapedBy_ofClasses`).  There is always an entry and no class is without a key, so no
  chain has too few branches and no branch is without a test.
* The entries of a field come from all toolchains, those of a declaration from the toolchains that
  have an item of the variable.  `Rule.definers` is the list of these toolchains for any statement
  (`exists_merging_of_mem_statements`).

`wellShaped_of_ofToolchains` is the main statement.
-/

namespace ToolchainMerge

open Starlark

/-! ## Merged choices -/

namespace Choice

/-- A choice as it is shaped by the keys that it has a value for. -/
structure ShapedBy (keys : List Key) (choice : Choice) : Prop where
  /-- There is nothing to choose, or there are two branches at least. -/
  constant_or_branches : choice.isConstant = true ∨ 2 ≤ choice.branches.length
  tests_ne_nil : ∀ branch ∈ choice.branches, branch.condition.tests ≠ []
  /-- At each of the keys one branch holds and no other. -/
  one_branch : choice.isConstant = false → ∀ key ∈ keys,
    (choice.branches.countP fun branch => branch.condition.Holds key) = 1
  /-- A test names one of the keys or its cpu. -/
  test_of_key : ∀ branch ∈ choice.branches, ∀ test ∈ branch.condition.tests,
    ∃ key ∈ keys, test = .ofCpu key.cpu ∨ test = .ofKey key

theorem shapedBy_always (keys : List Key) (value : Expr) : (always value).ShapedBy keys where
  constant_or_branches := Or.inl rfl
  tests_ne_nil := List.forall_mem_nil _
  one_branch := fun hconstant => (nomatch hconstant)
  test_of_key := List.forall_mem_nil _

/-- **A choice among classes is shaped by the scope that they divide up.** -/
theorem shapedBy_ofClasses {classes : List (ValueClass Expr)} {scope : List Key}
    (hdivides : Divides classes scope) (hclasses : classes ≠ [])
    (hkeys : ∀ group ∈ classes, group.keys ≠ []) (coverage : Coverage) :
    (ofClasses classes scope coverage).ShapedBy scope := by
  by_cases hlength : classes.length = 1
  · obtain ⟨only, rfl⟩ := List.length_eq_one_iff.mp hlength
    exact shapedBy_always scope only.value
  · have hpositive : 0 < classes.length := List.length_pos_of_ne_nil hclasses
    rw [ofClasses_of_length_ne_one hlength]
    refine ⟨Or.inr ?_, ?_, ?_, ?_⟩
    · rw [branches, List.length_map]
      omega
    · intro branch hbranch
      obtain ⟨group, hgroup, rfl⟩ := List.mem_map.mp hbranch
      exact Condition.tests_selecting_ne_nil (hkeys group hgroup)
    · intro _ key hkey
      obtain ⟨group, hgroup, hmem⟩ := hdivides.exists_class hkey
      have hholds : (Condition.selecting group.keys scope).Holds key :=
        (Condition.holds_selecting_iff_mem hdivides.1 (hdivides.nodup_keys hgroup)
          (hdivides.keys_subset hgroup) hkey).mpr hmem
      refine countP_eq_one_of_pairwise ?_ (List.mem_map_of_mem hgroup) (decide_eq_true hholds)
      simpa [branches] using pairwise_selecting hdivides key
    · intro branch hbranch test htest
      obtain ⟨group, hgroup, rfl⟩ := List.mem_map.mp hbranch
      obtain ⟨key, hkey, ⟨rfl, _⟩ | ⟨rfl, _⟩⟩ := Condition.exists_key_of_mem_tests htest
      · exact ⟨key, hdivides.keys_subset hgroup hkey, Or.inl rfl⟩
      · exact ⟨key, hdivides.keys_subset hgroup hkey, Or.inr rfl⟩

/-- A choice among classes fails elsewhere if it is meant for every key and has something to
choose. -/
theorem failsOtherwise_ofClasses_iff {classes : List (ValueClass Expr)} {scope : List Key}
    {coverage : Coverage} :
    (ofClasses classes scope coverage).failsOtherwise = true ↔
      coverage = .everyKey ∧ (ofClasses classes scope coverage).isConstant = false := by
  unfold ofClasses
  split
  · simp [failsOtherwise, isConstant]
  · cases coverage <;> simp [failsOtherwise, isConstant]

/-- A merged choice is shaped by the keys of its entries. -/
theorem shapedBy_merging {α : Type} [DecidableEq α] {toExpr : α → Expr}
    {entries : List (Key × α)} (hkeys : (entries.map (·.1)).Nodup) (hentries : entries ≠ [])
    (coverage : Coverage) :
    (merging toExpr entries coverage).ShapedBy (entries.map (·.1)) := by
  have hdivides : Divides ((ValueClass.ofEntries entries).map (·.map toExpr))
      (entries.map (·.1)) := divides_merging hkeys
  apply shapedBy_ofClasses hdivides
  · -- without classes there would be no keys
    intro hnone
    have hperm := hdivides.2
    rw [hnone] at hperm
    exact hentries (List.map_eq_nil_iff.mp hperm.symm.eq_nil)
  · rintro _ hgroup
    obtain ⟨group, hmem, rfl⟩ := List.mem_map.mp hgroup
    have hne : group.keys ≠ [] := ValueClass.keys_ne_nil_of_mem_ofEntries hmem
    exact hne

end Choice

/-! ## Who defines a statement -/

namespace Rule

/-- Whether a toolchain has a value for the statement of a role for a variable.  It has one for
each field, and for a declaration if one of its items has that variable. -/
def defines (role : Role) (target : String) (toolchain : Toolchain) : Bool :=
  match role with
  | .field => true
  | .declaration .actionConfig =>
      toolchain.actionConfigs.any fun config =>
        identifierStem config.actionName ++ "_action" = target
  | .declaration .feature =>
      toolchain.features.any fun feature => identifierStem feature.name ++ "_feature" = target

/-- The toolchains that have a value for a statement. -/
def definers (role : Role) (target : String) (toolchains : List Toolchain) : List Toolchain :=
  toolchains.filter (defines role target)

/-- A field is meant for all keys, a declaration for those where it is referred to. -/
def Role.coverage : Role → Coverage
  | .field => .everyKey
  | .declaration _ => .someKeys

theorem Role.coverage_eq_everyKey_iff {role : Role} : role.coverage = .everyKey ↔ role = .field := by
  cases role <;> simp [coverage]

end Rule

namespace Family

variable {α : Type} (family : Family α) {toolchains : List Toolchain}

/-- The keys of the definitions of a name are those of the toolchains that have an item with its
variable. -/
theorem map_key_definitions (hstems : DistinctStems (family.names toolchains)) {name : String}
    (hname : name ∈ family.names toolchains) :
    (family.definitions name toolchains).map (·.1) =
      (toolchains.filter fun toolchain => (family.items toolchain).any fun item =>
        family.identifier (family.name item) = family.identifier name).map Toolchain.key := by
  rw [family.definitions_eq hstems hname, List.map_filterMap, ← List.filterMap_eq_map,
    List.filterMap_filter]
  refine List.filterMap_congr fun toolchain _ => ?_
  rw [itemFor?, ← List.isSome_find?]
  cases (family.items toolchain).find? fun item =>
    family.identifier (family.name item) = family.identifier name <;> rfl

end Family

namespace Rule

variable {toolchains : List Toolchain} {rule : Rule}

/-- **Every statement is a merged choice**, and its entries come from the toolchains that define
it. -/
theorem exists_merging_of_mem_statements (hne : toolchains ≠ [])
    (hconfigs : DistinctStems (Family.actionConfigs.names toolchains))
    (hfeatures : DistinctStems (Family.features.names toolchains)) {role : Role}
    {assignment : Assignment} (hstatement : (role, assignment) ∈ (merged toolchains).statements) :
    ∃ (α : Type) (_ : DecidableEq α) (toExpr : α → Expr) (entries : List (Key × α)),
      assignment.choice = .merging toExpr entries role.coverage ∧ entries ≠ [] ∧
        entries.map (·.1) = (definers role assignment.target toolchains).map Toolchain.key := by
  cases role with
  | field =>
      obtain ⟨field, _, rfl⟩ := mem_statements_field.mp hstatement
      have hall : definers .field field.1 toolchains = toolchains :=
        List.filter_eq_self.mpr fun _ _ => rfl
      refine ⟨Expr, inferInstance, id, _, rfl, by simpa using hne, ?_⟩
      show _ = (definers .field field.1 toolchains).map Toolchain.key
      rw [hall, List.map_map]
      rfl
  | declaration kind =>
      cases kind with
      | actionConfig =>
          obtain ⟨name, hname, rfl⟩ := mem_statements_actionConfig.mp hstatement
          exact ⟨_, inferInstance, _, _, rfl, Family.actionConfigs.definitions_ne_nil hname,
            Family.actionConfigs.map_key_definitions hconfigs hname⟩
      | feature =>
          obtain ⟨name, hname, rfl⟩ := mem_statements_feature.mp hstatement
          exact ⟨_, inferInstance, _, _, rfl, Family.features.definitions_ne_nil hname,
            Family.features.map_key_definitions hfeatures hname⟩

/-! ## The whole rule -/

/-- The statements of a rule in the shape that its text relies on. -/
structure WellShaped (toolchains : List Toolchain) (rule : Rule) : Prop where
  /-- The fields come in a fixed order.  Before each list of items, every name that is seen in the
  toolchains is declared once, in first-seen order. -/
  targets : ∃ actions features : List String,
    FirstSeen (toolchains.flatMap fun toolchain => toolchain.actionConfigs.map (·.actionName))
      actions ∧
    FirstSeen (toolchains.flatMap fun toolchain => toolchain.features.map (·.name)) features ∧
    rule.statements.map (fun statement => (statement.1, statement.2.target)) =
      ["toolchain_identifier", "host_system_name", "target_system_name", "target_cpu",
        "target_libc", "compiler", "abi_version", "abi_libc_version", "cc_target_os",
        "builtin_sysroot"].map (Role.field, ·) ++
      actions.map (fun name => (Role.declaration .actionConfig, identifierStem name ++ "_action")) ++
      [(Role.field, "action_configs")] ++
      features.map (fun name => (Role.declaration .feature, identifierStem name ++ "_feature")) ++
      [(Role.field, "features")] ++
      ["cxx_builtin_include_directories", "artifact_name_patterns", "make_variables",
        "tool_paths"].map (Role.field, ·)
  /-- Each statement chooses among the keys of the toolchains that define it. -/
  shaped : ∀ role assignment, (role, assignment) ∈ rule.statements →
    assignment.choice.ShapedBy ((definers role assignment.target toolchains).map Toolchain.key)
  /-- What fails at other keys is a field that is not the same at all keys. -/
  failsOtherwise_iff : ∀ role assignment, (role, assignment) ∈ rule.statements →
    (assignment.choice.failsOtherwise = true ↔
      role = .field ∧ assignment.choice.isConstant = false)

theorem targets_merged (toolchains : List Toolchain) :
    (merged toolchains).statements.map (fun statement => (statement.1, statement.2.target)) =
      Toolchain.textValues.map (fun field => (Role.field, field.1)) ++
      (Family.actionConfigs.names toolchains).eraseDups.map (fun name =>
        (Role.declaration .actionConfig, Family.actionConfigs.identifier name)) ++
      [(Role.field, "action_configs")] ++
      (Family.features.names toolchains).eraseDups.map (fun name =>
        (Role.declaration .feature, Family.features.identifier name)) ++
      [(Role.field, "features")] ++
      Toolchain.listValues.map (fun field => (Role.field, field.1)) := by
  simp only [statements, declaredStatements, merged, Family.declared, List.map_append,
    List.map_map, List.append_assoc]
  rfl

/-- **Merged rules are well-shaped.** -/
theorem wellShaped_of_ofToolchains (hmerge : ofToolchains toolchains = .ok rule) :
    rule.WellShaped toolchains := by
  obtain ⟨hvalid, hconfigs, hfeatures, rfl⟩ := ofToolchains_eq_ok_iff.mp hmerge
  obtain ⟨hne, hkeys, _⟩ := validate_eq_ok_iff.mp hvalid
  refine ⟨⟨_, _, firstSeen_iff.mpr rfl, firstSeen_iff.mpr rfl, targets_merged toolchains⟩, ?_, ?_⟩
  · intro role assignment hstatement
    obtain ⟨α, _, toExpr, entries, hchoice, hentries, hdefiners⟩ :=
      exists_merging_of_mem_statements hne hconfigs hfeatures hstatement
    have hnodup : (entries.map (·.1)).Nodup := by
      rw [hdefiners]
      exact (List.filter_sublist.map Toolchain.key).nodup hkeys
    rw [hchoice, ← hdefiners]
    exact Choice.shapedBy_merging hnodup hentries _
  · intro role assignment hstatement
    obtain ⟨α, _, toExpr, entries, hchoice, _, _⟩ :=
      exists_merging_of_mem_statements hne hconfigs hfeatures hstatement
    rw [hchoice, Choice.merging, Choice.failsOtherwise_ofClasses_iff, Role.coverage_eq_everyKey_iff]

/-- Two compilers of one cpu and a third toolchain.  A feature is there for two of them only, and
differs. -/
def partlyLinked : List Toolchain :=
  [{ (default : Toolchain) with
      targetCpu := "k8", compiler := "gcc", features := [⟨"static", true, [], [], [], [], []⟩] },
    { (default : Toolchain) with
      targetCpu := "k8", compiler := "clang",
      actionConfigs := [⟨"link", "c++-link-executable", true, [], [], []⟩] },
    { (default : Toolchain) with
      targetCpu := "arm", compiler := "gcc",
      features := [⟨"static", false, [], [], [], [], []⟩] }]

theorem wellShaped_partlyLinked :
    ofToolchains partlyLinked = .ok (merged partlyLinked) ∧
      (merged partlyLinked).WellShaped partlyLinked ∧
      (Family.features.itemAssignment partlyLinked "static").choice.branches.length = 2 :=
  have hmerge : ofToolchains partlyLinked = .ok (merged partlyLinked) := by rfl
  ⟨hmerge, wellShaped_of_ofToolchains hmerge, by decide +kernel⟩

end Rule

end ToolchainMerge
