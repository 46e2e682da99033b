import ToolchainMerge.Proofs.Execution

/-!
# A rule reproduces its toolchains

At the key of a toolchain the body of the merged rule leaves the variables as the toolchain
describes them (`run_ofToolchains`).  That every statement has the right value there is
`Choice.at?_merging`.  What remains is that the values can be read.

The statements fall into blocks.  Fields without names and declarations read names of the
file only (`ready_fieldAssignment`, `ready_itemAssignment`), the two lists of variables read
what the declarations before them have assigned (`ready_references`).
-/

namespace ToolchainMerge

open Starlark

/-- The variables describe a toolchain: every field of the configuration has the value of that
field, and the variables in the lists of features and action configs have the calls of the
toolchain's own items, position by position. -/
structure Describes (toolchain : Toolchain) (bindings : Bindings) : Prop where
  toolchain_identifier :
    bindings "toolchain_identifier" = some (.str toolchain.identifier)
  host_system_name : bindings "host_system_name" = some (.str toolchain.hostSystemName)
  target_system_name : bindings "target_system_name" = some (.str toolchain.targetSystemName)
  target_cpu : bindings "target_cpu" = some (.str toolchain.targetCpu)
  target_libc : bindings "target_libc" = some (.str toolchain.targetLibc)
  compiler : bindings "compiler" = some (.str toolchain.compiler)
  abi_version : bindings "abi_version" = some (.str toolchain.abiVersion)
  abi_libc_version : bindings "abi_libc_version" = some (.str toolchain.abiLibcVersion)
  cc_target_os : bindings "cc_target_os" = some (toolchain.targetOs.elim .none .str)
  builtin_sysroot : bindings "builtin_sysroot" = some (toolchain.builtinSysroot.elim .none .str)
  cxx_builtin_include_directories : bindings "cxx_builtin_include_directories" =
    some (.list (toolchain.includeDirectories.map .str))
  artifact_name_patterns : bindings "artifact_name_patterns" =
    some (.list (toolchain.artifactNamePatterns.map ArtifactNamePattern.toExpr))
  make_variables : bindings "make_variables" =
    some (.list (toolchain.makeVariables.map MakeVariable.toExpr))
  tool_paths : bindings "tool_paths" = some (.list (toolchain.toolPaths.map ToolPath.toExpr))
  features : ∃ names, bindings "features" = some (.list (names.map .ident)) ∧
    List.Forall₂ (fun name (feature : Feature) => bindings name = some feature.toExpr)
      names toolchain.features
  action_configs : ∃ names, bindings "action_configs" = some (.list (names.map .ident)) ∧
    List.Forall₂ (fun name (config : ActionConfig) => bindings name = some config.toExpr)
      names toolchain.actionConfigs

/-! ## What is read -/

namespace Rule

variable {toolchains : List Toolchain} {rule : Rule} {key : Key}

/-- A variable of the body is a field or ends like a variable of an item. -/
theorem target_cases {assignment : Assignment}
    (hassignment : assignment ∈ (merged toolchains).assignments) :
    assignment.target ∈ Toolchain.fieldValues.map (·.1) ∨
      ∃ kind : ItemKind, kind.suffix.toList <:+ assignment.target.toList := by
  obtain ⟨⟨role, _⟩, hstatement, rfl⟩ := List.mem_map.mp hassignment
  cases role with
  | field =>
      obtain ⟨field, hfield, rfl⟩ := mem_statements_field.mp hstatement
      exact Or.inl (List.mem_map_of_mem hfield)
  | declaration kind =>
      cases kind with
      | actionConfig =>
          obtain ⟨name, _, rfl⟩ := mem_statements_actionConfig.mp hstatement
          exact Or.inr ⟨_, Family.actionConfigs.suffix_isSuffix_identifier name⟩
      | feature =>
          obtain ⟨name, _, rfl⟩ := mem_statements_feature.mp hstatement
          exact Or.inr ⟨_, Family.features.suffix_isSuffix_identifier name⟩

/-- The names that the function reads besides the fields: its parameter, its own variable, the
function that stops it, and what the file loads. -/
def reserved : List String :=
  context :: "out" :: "fail" :: "ACTION_NAMES" :: constructors

/-- **The body assigns no reserved name.** -/
theorem target_not_mem_reserved {assignment : Assignment}
    (hassignment : assignment ∈ (merged toolchains).assignments) :
    assignment.target ∉ reserved := by
  have hreserved : ∀ name ∈ reserved, name ∉ Toolchain.fieldValues.map (·.1) ∧
      ∀ kind ∈ [ItemKind.feature, .actionConfig], ¬ kind.suffix.toList <:+ name.toList := by
    decide
  intro hmem
  obtain ⟨hfield, hitem⟩ := hreserved _ hmem
  rcases target_cases hassignment with htarget | ⟨kind, hsuffix⟩
  · exact hfield htarget
  · refine hitem kind ?_ hsuffix
    cases kind <;> simp

/-- The variables through which names from outside are read. -/
theorem rootOf_mem_reserved {name : String} (hname : name ∈ context :: loaded) :
    rootOf name ∈ reserved := by
  rcases List.mem_cons.mp hname with rfl | hname
  · decide
  · rcases List.mem_append.mp hname with hname | hname
    · have hself : ∀ name ∈ constructors, rootOf name ∈ reserved := by decide
      exact hself name hname
    · obtain ⟨action, _, rfl⟩ := List.mem_map.mp hname
      have hroot : rootOf ("ACTION_NAMES." ++ identifierStem action) = "ACTION_NAMES" := by
        rw [rootOf, String.toList_append]
        rfl
      rw [hroot]
      decide

/-- **The body hides no name of the file.** -/
theorem outer_merged : (merged toolchains).outer = context :: loaded := by
  rw [outer, List.filter_eq_self]
  intro name hname
  rw [decide_eq_true_iff]
  intro hmem
  obtain ⟨assignment, hassignment, htarget⟩ := List.mem_map.mp hmem
  exact target_not_mem_reserved hassignment (htarget ▸ rootOf_mem_reserved hname)

theorem context_mem_outer : context ∈ (merged toolchains).outer := by
  rw [outer_merged]
  exact List.mem_cons_self ..

theorem mem_outer_of_loaded {expr : Expr} (hexpr : expr.Loaded) {name : String}
    (hname : name ∈ expr.names) : name ∈ (merged toolchains).outer := by
  rw [outer_merged]
  exact List.mem_cons_of_mem _ (expr.known_of_mem_names hexpr.usesOnly name hname)

/-- An assignment whose values use the names of the file only is ready at once. -/
theorem ready_of_loaded {assignment : Assignment} {bindings : Bindings}
    (hloaded : ∀ value, assignment.choice.at? key = some value → value.Loaded)
    (hfails : assignment.choice.failsOtherwise → (assignment.choice.at? key).isSome) :
    assignment.Ready (merged toolchains).outer key bindings := by
  refine ⟨fun name hname => Or.inl ?_, hfails⟩
  rcases List.mem_append.mp hname with hname | hname
  · split at hname
    · exact absurd hname List.not_mem_nil
    · exact List.mem_singleton.mp hname ▸ context_mem_outer
  · cases hvalue : assignment.choice.at? key with
    | none =>
        rw [hvalue] at hname
        exact absurd hname List.not_mem_nil
    | some value =>
        rw [hvalue] at hname
        exact mem_outer_of_loaded (hloaded value hvalue) hname

end Rule

/-! ## Fields -/

namespace Toolchain

variable {toolchains : List Toolchain} {toolchain : Toolchain}

theorem at?_fieldAssignment (hkeys : (toolchains.map key).Nodup)
    (htoolchain : toolchain ∈ toolchains) (field : String × (Toolchain → Expr)) :
    (fieldAssignment toolchains field).choice.at? toolchain.key = some (field.2 toolchain) := by
  have hentries : ((toolchains.map fun toolchain =>
      (toolchain.key, field.2 toolchain)).map (·.1)).Nodup := by
    rwa [List.map_map]
  exact Choice.at?_merging hentries (List.mem_map_of_mem htoolchain)

/-- What the fields without names read is in the file. -/
theorem loaded_of_plain {field : String × (Toolchain → Expr)}
    (hfield : field ∈ textValues ++ listValues) (toolchain : Toolchain) :
    (field.2 toolchain).Loaded := by
  have hoptional : ∀ text : Option String, (Expr.optionalStr text).Loaded := by
    intro text
    cases text with
    | none => exact .none
    | some value => exact .str value
  rcases List.mem_append.mp hfield with htext | hlist
  · rcases List.mem_append.mp htext with htext | htext
    · obtain ⟨_, _, rfl⟩ := List.mem_map.mp htext
      exact .str _
    · obtain ⟨_, _, rfl⟩ := List.mem_map.mp htext
      exact hoptional _
  · simp only [listValues, List.mem_cons, List.not_mem_nil, or_false] at hlist
    rcases hlist with rfl | rfl | rfl | rfl
    · exact .list (List.forall_mem_map.mpr fun value _ => .str value)
    · exact .list (List.forall_mem_map.mpr fun pattern _ => pattern.loaded_toExpr)
    · exact .list (List.forall_mem_map.mpr fun exported _ => exported.loaded_toExpr)
    · exact .list (List.forall_mem_map.mpr fun tool _ => tool.loaded_toExpr)

theorem ready_fieldAssignment (hkeys : (toolchains.map key).Nodup)
    (htoolchain : toolchain ∈ toolchains) {field : String × (Toolchain → Expr)}
    (hfield : field ∈ textValues ++ listValues) (bindings : Bindings) :
    (fieldAssignment toolchains field).Ready (Rule.merged toolchains).outer toolchain.key
      bindings := by
  have hvalue := at?_fieldAssignment hkeys htoolchain field
  refine Rule.ready_of_loaded (fun value hvalue' => ?_) fun _ => hvalue ▸ rfl
  rw [hvalue] at hvalue'
  exact Option.some.inj hvalue' ▸ loaded_of_plain hfield toolchain

end Toolchain

/-! ## Named items -/

theorem Family.names_variableList {α : Type} (family : Family α) (toolchain : Toolchain) :
    (family.variableList toolchain).names =
      (family.items toolchain).map fun item => family.identifier (family.name item) := by
  have hnames := Expr.itemNames_map_ident
    ((family.items toolchain).map fun item => family.identifier (family.name item))
  rw [List.map_map] at hnames
  exact hnames

namespace Family

variable {α : Type} [DecidableEq α] (family : Family α) {toolchains : List Toolchain}
  {toolchain : Toolchain}

theorem at?_itemAssignment (hkeys : (toolchains.map Toolchain.key).Nodup)
    (htoolchain : toolchain ∈ toolchains)
    (hnames : ((family.items toolchain).map family.name).Nodup) {item : α}
    (hitem : item ∈ family.items toolchain) :
    (family.itemAssignment toolchains (family.name item)).choice.at? toolchain.key =
      some (family.toExpr item) :=
  Choice.at?_merging ((family.keys_definitions_sublist _ toolchains).nodup hkeys)
    (family.mem_definitions htoolchain hnames hitem)

/-- A declaration can always be executed, also where it binds nothing. -/
theorem ready_itemAssignment (hloaded : ∀ item, (family.toExpr item).Loaded) (name : String)
    (key : Key) (bindings : Bindings) :
    (family.itemAssignment toolchains name).Ready (Rule.merged toolchains).outer key
      bindings := by
  refine Rule.ready_of_loaded (fun value hvalue => ?_) fun hfails => ?_
  · obtain ⟨entry, _, rfl⟩ := Choice.exists_entry_of_at?_merging hvalue
    exact hloaded entry.2
  · rcases Choice.merging_cases family.toExpr (family.definitions name toolchains) .someKeys with
      ⟨_, _, hchoice⟩ | ⟨_, hchoice⟩ <;>
    · rw [itemAssignment, hchoice] at hfails
      exact nomatch hfails

/-- The list of the variables can be executed once they are declared. -/
theorem ready_references (hkeys : (toolchains.map Toolchain.key).Nodup)
    (htoolchain : toolchain ∈ toolchains)
    (hnames : ((family.items toolchain).map family.name).Nodup) (field : String)
    (bindings : Bindings) :
    (family.declared field toolchains).references.Ready (Rule.merged toolchains).outer
      toolchain.key ((family.declared field toolchains).declarations.foldl
        (Assignment.assign toolchain.key) bindings) := by
  have hvalue : (family.declared field toolchains).references.choice.at? toolchain.key =
      some (family.variableList toolchain) :=
    Toolchain.at?_fieldAssignment hkeys htoolchain (field, family.variableList)
  refine ⟨fun name hname => ?_, fun _ => hvalue ▸ rfl⟩
  rcases List.mem_append.mp hname with hcondition | hread
  · -- conditions read the key, through the parameter of the function
    split at hcondition
    · exact absurd hcondition List.not_mem_nil
    · exact Or.inl (List.mem_singleton.mp hcondition ▸ Rule.context_mem_outer)
  · -- the value reads the variables of the items, which are bound at the key of their toolchain
    right
    rw [hvalue] at hread
    have hitems : name ∈ (family.variableList toolchain).names := hread
    rw [family.names_variableList] at hitems
    obtain ⟨item, hitem, rfl⟩ := List.mem_map.mp hitems
    have hdeclared : family.itemAssignment toolchains (family.name item) ∈
        (family.declared field toolchains).declarations :=
      List.mem_map_of_mem (List.mem_eraseDups.mpr (family.name_mem_names htoolchain hitem))
    refine Assignment.isSome_foldl_assign_of_mem hdeclared ?_ bindings
    rw [family.at?_itemAssignment hkeys htoolchain hnames hitem]
    rfl

/-- **A declared list is executed** at the key of a toolchain. -/
theorem foldlM_execute_declared (hloaded : ∀ item, (family.toExpr item).Loaded)
    (hkeys : (toolchains.map Toolchain.key).Nodup) (htoolchain : toolchain ∈ toolchains)
    (hnames : ((family.items toolchain).map family.name).Nodup) (field : String)
    (bindings : Bindings) :
    ((family.declared field toolchains).declarations ++
        [(family.declared field toolchains).references]).foldlM
      (Assignment.execute (Rule.merged toolchains).outer toolchain.key) bindings =
    .ok (((family.declared field toolchains).declarations ++
        [(family.declared field toolchains).references]).foldl
      (Assignment.assign toolchain.key) bindings) := by
  refine Assignment.foldlM_execute_append (Assignment.foldlM_execute ?_)
    (Assignment.foldlM_execute ?_)
  · rw [declared, List.forall_mem_map]
    intro name _
    exact family.ready_itemAssignment hloaded name _ _
  · intro references hreferences
    rw [List.mem_singleton.mp hreferences]
    exact family.ready_references hkeys htoolchain hnames field bindings

end Family

/-! ## The whole body -/

namespace Rule

variable {toolchains : List Toolchain} {toolchain : Toolchain} {rule : Rule}

theorem assignments_merged :
    (merged toolchains).assignments =
      Toolchain.textValues.map (Toolchain.fieldAssignment toolchains) ++
      (((Family.actionConfigs.declared "action_configs" toolchains).declarations ++
        [(Family.actionConfigs.declared "action_configs" toolchains).references]) ++
      (((Family.features.declared "features" toolchains).declarations ++
        [(Family.features.declared "features" toolchains).references]) ++
      Toolchain.listValues.map (Toolchain.fieldAssignment toolchains))) := by
  simp [assignments, statements, declaredStatements, merged, Function.comp_def]

/-- Nothing goes wrong at the key of a toolchain. -/
theorem run_merged (hvalid : validate toolchains = .ok ()) (htoolchain : toolchain ∈ toolchains) :
    (merged toolchains).run toolchain.key =
      .ok ((merged toolchains).assignments.foldl (Assignment.assign toolchain.key)
        fun _ => none) := by
  obtain ⟨_, hkeys, hwellFormed⟩ := validate_eq_ok_iff.mp hvalid
  have hfields : ∀ fields ⊆ Toolchain.textValues ++ Toolchain.listValues, ∀ bindings,
      (fields.map (Toolchain.fieldAssignment toolchains)).foldlM
        (Assignment.execute (merged toolchains).outer toolchain.key) bindings =
      .ok ((fields.map (Toolchain.fieldAssignment toolchains)).foldl
        (Assignment.assign toolchain.key) bindings) := by
    intro fields hfields bindings
    refine Assignment.foldlM_execute (List.forall_mem_map.mpr fun field hfield => ?_)
    exact Toolchain.ready_fieldAssignment hkeys htoolchain (hfields hfield) bindings
  -- texts, action configs, features, lists: each block is executed behind the ones before it
  rw [run, assignments_merged]
  refine Assignment.foldlM_execute_append (hfields _ (List.subset_append_left _ _) _) ?_
  refine Assignment.foldlM_execute_append (Family.actionConfigs.foldlM_execute_declared
    ActionConfig.loaded_toExpr hkeys htoolchain
    (hwellFormed toolchain htoolchain).nodup_actionConfigs _ _) ?_
  refine Assignment.foldlM_execute_append (Family.features.foldlM_execute_declared
    Feature.loaded_toExpr hkeys htoolchain
    (hwellFormed toolchain htoolchain).nodup_features _ _) ?_
  exact hfields _ (List.subset_append_right _ _) _

/-- What is left in the variables once nothing goes wrong. -/
theorem describes_of_values {bindings : Bindings}
    (hfields : ∀ field ∈ Toolchain.fieldValues, bindings field.1 = some (field.2 toolchain))
    (hconfigs : ∀ config ∈ toolchain.actionConfigs,
      bindings (Family.actionConfigs.identifier config.actionName) = some config.toExpr)
    (hfeatures : ∀ feature ∈ toolchain.features,
      bindings (Family.features.identifier feature.name) = some feature.toExpr) :
    Describes toolchain bindings := by
  have hconfigItems : List.Forall₂
      (fun name (config : ActionConfig) => bindings name = some config.toExpr)
      (toolchain.actionConfigs.map fun config =>
        Family.actionConfigs.identifier config.actionName) toolchain.actionConfigs := by
    rwa [List.forall₂_map_left_iff, List.forall₂_same]
  have hfeatureItems : List.Forall₂
      (fun name (feature : Feature) => bindings name = some feature.toExpr)
      (toolchain.features.map fun feature => Family.features.identifier feature.name)
      toolchain.features := by
    rwa [List.forall₂_map_left_iff, List.forall₂_same]
  -- the fields one by one, in the order of their assignments
  simp only [Toolchain.fieldValues, Toolchain.textValues, Toolchain.textFields,
    Toolchain.optionalFields, Toolchain.listValues, List.map_cons, List.map_nil, List.cons_append,
    List.nil_append, List.forall_mem_cons] at hfields
  obtain ⟨hidentifier, hhost, htarget, hcpu, hlibc, hcompiler, habi, habiLibc, hos, hsysroot,
    hconfigList, hfeatureList, hdirectories, hpatterns, hexported, htools, _⟩ := hfields
  have hoptional : ∀ text : Option String, Expr.optionalStr text = text.elim .none .str := by
    intro text
    cases text <;> rfl
  rw [hoptional] at hos hsysroot
  refine ⟨hidentifier, hhost, htarget, hcpu, hlibc, hcompiler, habi, habiLibc, hos, hsysroot,
    hdirectories, hpatterns, hexported, htools, ⟨_, ?_, hfeatureItems⟩, ⟨_, ?_, hconfigItems⟩⟩
  · rw [hfeatureList, List.map_map]
    rfl
  · rw [hconfigList, List.map_map]
    rfl

/-- **A merged rule reproduces its toolchains.**  Executed for the key of any of them, it stops
nowhere, reads no name without a value, and leaves the variables as that toolchain describes
them. -/
theorem run_ofToolchains (hmerge : ofToolchains toolchains = .ok rule)
    (htoolchain : toolchain ∈ toolchains) :
    ∃ bindings, rule.run toolchain.key = .ok bindings ∧ Describes toolchain bindings := by
  obtain ⟨hvalid, hconfigs, hfeatures, rfl⟩ := ofToolchains_eq_ok_iff.mp hmerge
  obtain ⟨_, hkeys, hwellFormed⟩ := validate_eq_ok_iff.mp hvalid
  have hlookup : ∀ assignment ∈ (merged toolchains).assignments, ∀ value,
      assignment.choice.at? toolchain.key = some value →
        (merged toolchains).assignments.foldl (Assignment.assign toolchain.key) (fun _ => none)
          assignment.target = some value := fun assignment hassignment value hvalue =>
    Assignment.foldl_assign_of_mem (nodup_targets_merged hconfigs hfeatures) hassignment hvalue _
  refine ⟨_, run_merged hvalid htoolchain, describes_of_values (fun field hfield => ?_)
    (fun config hconfig => ?_) fun feature hfeature => ?_⟩
  · refine hlookup _ ?_ _ (Toolchain.at?_fieldAssignment hkeys htoolchain field)
    exact List.mem_map.mpr ⟨_, mem_statements_field.mpr ⟨field, hfield, rfl⟩, rfl⟩
  · have hname := Family.actionConfigs.name_mem_names htoolchain hconfig
    refine hlookup _ ?_ _ (Family.actionConfigs.at?_itemAssignment hkeys htoolchain
      (hwellFormed toolchain htoolchain).nodup_actionConfigs hconfig)
    exact List.mem_map.mpr ⟨_, mem_statements_actionConfig.mpr ⟨_, hname, rfl⟩, rfl⟩
  · have hname := Family.features.name_mem_names htoolchain hfeature
    refine hlookup _ ?_ _ (Family.features.at?_itemAssignment hkeys htoolchain
      (hwellFormed toolchain htoolchain).nodup_features hfeature)
    exact List.mem_map.mpr ⟨_, mem_statements_feature.mpr ⟨_, hname, rfl⟩, rfl⟩

/-- Two toolchains with a common feature that only one of them enables, and a feature that only
the other has. -/
def partlyShared : List Toolchain :=
  [{ (default : Toolchain) with
      targetCpu := "k8", features := [⟨"opt", true, [], [], [], [], []⟩] },
    { (default : Toolchain) with
      targetCpu := "arm",
      features := [⟨"dbg", true, [], [], [], [], []⟩, ⟨"opt", false, [], [], [], [], []⟩] }]

theorem run_ofToolchains_partlyShared :
    ofToolchains partlyShared = .ok (merged partlyShared) ∧
      ∀ toolchain ∈ partlyShared, ∃ bindings,
        (merged partlyShared).run toolchain.key = .ok bindings ∧ Describes toolchain bindings :=
  have hmerge : ofToolchains partlyShared = .ok (merged partlyShared) := by rfl
  ⟨hmerge, fun _ htoolchain => run_ofToolchains hmerge htoolchain⟩

end Rule

end ToolchainMerge
