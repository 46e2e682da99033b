import ToolchainMerge.Proofs.Constructor
import ToolchainMerge.Proofs.Declaration
import ToolchainMerge.Rule.Basic

/-!
# The statements of a merged rule

`Rule.ofToolchains` succeeds exactly on valid toolchains whose names have distinct stems, and
then yields `Rule.merged` (`ofToolchains_eq_ok_iff`).  Every statement of that rule is a
merged choice:

* a field merges the *expressions* that the toolchains give to it, since the conversion of a
  field loses nothing (`mergeField_eq`);
* a declaration merges the definitions of its name.

The variables that the statements assign are pairwise different (`nodup_targets_merged`):
stems and suffixes keep declarations apart, and no field is called like a variable of an item.
-/

namespace ToolchainMerge

open Starlark Text

/-! ## Fields -/

namespace Toolchain

/-- The fields that are texts, with the expression that a toolchain gives to each. -/
def textValues : List (String × (Toolchain → Expr)) :=
  textFields.map (fun field => (field.1, fun toolchain => .str (field.2 toolchain))) ++
    optionalFields.map fun field => (field.1, fun toolchain => .optionalStr (field.2 toolchain))

/-- The fields that are lists without names, with the expression that a toolchain gives to
each. -/
def listValues : List (String × (Toolchain → Expr)) :=
  [("cxx_builtin_include_directories", fun toolchain => .strList toolchain.includeDirectories),
    ("artifact_name_patterns", fun toolchain =>
      .list (toolchain.artifactNamePatterns.map ArtifactNamePattern.toExpr)),
    ("make_variables", fun toolchain =>
      .list (toolchain.makeVariables.map MakeVariable.toExpr)),
    ("tool_paths", fun toolchain => .list (toolchain.toolPaths.map ToolPath.toExpr))]

/-- All fields in the order of their assignments. -/
def fieldValues : List (String × (Toolchain → Expr)) :=
  textValues ++ ("action_configs", Family.actionConfigs.variableList) ::
    ("features", Family.features.variableList) :: listValues

/-- The assignment of a field, merged from the expressions that the toolchains give to it. -/
def fieldAssignment (toolchains : List Toolchain) (field : String × (Toolchain → Expr)) :
    Assignment :=
  ⟨field.1, .merging id (toolchains.map fun toolchain => (toolchain.key, field.2 toolchain))
    .everyKey⟩

/-- Merging values is merging expressions if the conversion tells the values apart. -/
theorem mergeField_eq {α : Type} [DecidableEq α] {toExpr : α → Expr}
    (hinj : ∀ first second, toExpr first = toExpr second → first = second)
    (toolchains : List Toolchain) (target : String) (value : Toolchain → α) :
    mergeField toolchains target value toExpr =
      fieldAssignment toolchains (target, fun toolchain => toExpr (value toolchain)) := by
  have hkeys : (toolchains.map fun toolchain => (toolchain.key, value toolchain)).map (·.1) =
      toolchains.map key := by
    rw [List.map_map]
    rfl
  let entries := toolchains.map fun toolchain => (toolchain.key, value toolchain)
  have hmerge : Choice.merging toExpr entries .everyKey = _ :=
    Choice.merging_eq_of_injOn (fun first _ second _ => hinj first second) .everyKey
  rw [Choice.merging, hkeys, List.map_map] at hmerge
  rw [mergeField, hmerge]
  rfl

theorem optionalStr_inj {first second : Option String}
    (heq : Expr.optionalStr first = .optionalStr second) : first = second := by
  cases first <;> cases second <;> simp_all [Expr.optionalStr]

theorem strList_inj {first second : List String}
    (heq : Expr.strList first = .strList second) : first = second :=
  strExprs_inj.mp (Expr.list.inj heq)

theorem mergeTexts_eq (toolchains : List Toolchain) :
    mergeTexts toolchains = textValues.map (fieldAssignment toolchains) := by
  rw [mergeTexts, textValues, List.map_append, List.map_map, List.map_map]
  refine congrArg₂ _ (List.map_congr_left fun field _ => ?_)
    (List.map_congr_left fun field _ => ?_)
  · exact mergeField_eq (fun _ _ => Expr.str.inj) _ _ _
  · exact mergeField_eq (fun _ _ => optionalStr_inj) _ _ _

theorem mergeLists_eq (toolchains : List Toolchain) :
    mergeLists toolchains = listValues.map (fieldAssignment toolchains) := by
  have hlist : ∀ {α : Type} {change : α → Expr}, (∀ {left right}, change left = change right →
      left = right) → ∀ lefts rights : List α,
        Expr.list (lefts.map change) = .list (rights.map change) → lefts = rights :=
    fun hinj lefts rights heq => (List.map_inj_right fun _ _ => hinj).mp (Expr.list.inj heq)
  rw [mergeLists, mergeField_eq (fun _ _ => strList_inj),
    mergeField_eq (hlist ArtifactNamePattern.toExpr_inj),
    mergeField_eq (hlist MakeVariable.toExpr_inj), mergeField_eq (hlist ToolPath.toExpr_inj)]
  rfl

end Toolchain

/-! ## Rules -/

namespace Rule

/-- The rule that a list of toolchains is merged into. -/
def merged (toolchains : List Toolchain) : Rule where
  texts := Toolchain.textValues.map (Toolchain.fieldAssignment toolchains)
  actionConfigs := Family.actionConfigs.declared "action_configs" toolchains
  features := Family.features.declared "features" toolchains
  lists := Toolchain.listValues.map (Toolchain.fieldAssignment toolchains)
  cpus := sortedDistinct (toolchains.map (·.targetCpu))
  compilers := sortedDistinct (toolchains.map (·.compiler))

variable {toolchains : List Toolchain} {rule : Rule}

/-- **When toolchains can be merged, and into what.** -/
theorem ofToolchains_eq_ok_iff :
    ofToolchains toolchains = .ok rule ↔
      validate toolchains = .ok () ∧ DistinctStems (Family.actionConfigs.names toolchains) ∧
        DistinctStems (Family.features.names toolchains) ∧ rule = merged toolchains := by
  simp only [ofToolchains, bind, Except.bind, Toolchain.mergeTexts_eq, Toolchain.mergeLists_eq]
  constructor
  · intro h
    cases hvalid : validate toolchains with
    | error error =>
        rw [hvalid] at h
        exact nomatch h
    | ok accepted =>
        cases hconfigs : Family.actionConfigs.declare "action_configs" toolchains
            (toolchains.map Toolchain.key) with
        | error error =>
            simp only [hvalid, hconfigs] at h
            exact nomatch h
        | ok configs =>
            cases hfeatures : Family.features.declare "features" toolchains
                (toolchains.map Toolchain.key) with
            | error error =>
                simp only [hvalid, hconfigs, hfeatures] at h
                exact nomatch h
            | ok features =>
                simp only [hvalid, hconfigs, hfeatures] at h
                obtain ⟨hstems, rfl⟩ := (Family.declare_eq_ok_iff _).mp hconfigs
                obtain ⟨hstems', rfl⟩ := (Family.declare_eq_ok_iff _).mp hfeatures
                exact ⟨rfl, hstems, hstems', (Except.ok.inj h).symm⟩
  · rintro ⟨hvalid, hconfigs, hfeatures, rfl⟩
    rw [hvalid, (Family.declare_eq_ok_iff _).mpr ⟨hconfigs, rfl⟩,
      (Family.declare_eq_ok_iff _).mpr ⟨hfeatures, rfl⟩]
    rfl

/-! ## The statements -/

theorem mem_statements {role : Role} {assignment : Assignment} :
    (role, assignment) ∈ rule.statements ↔ match role with
      | .field => assignment ∈ rule.texts ∨ assignment = rule.actionConfigs.references ∨
          assignment = rule.features.references ∨ assignment ∈ rule.lists
      | .declaration .actionConfig => assignment ∈ rule.actionConfigs.declarations
      | .declaration .feature => assignment ∈ rule.features.declarations := by
  rcases role with _ | _ | _ <;> simp [statements, declaredStatements]

theorem mem_statements_field {assignment : Assignment} :
    (.field, assignment) ∈ (merged toolchains).statements ↔
      ∃ field ∈ Toolchain.fieldValues, assignment = Toolchain.fieldAssignment toolchains field := by
  have hreferences : ∀ {α : Type} [DecidableEq α] (family : Family α) (field : String),
      (family.declared field toolchains).references =
        Toolchain.fieldAssignment toolchains (field, family.variableList) := fun _ _ => rfl
  rw [mem_statements]
  simp only [merged, Toolchain.fieldValues, hreferences, List.mem_map, List.mem_append,
    List.mem_cons, or_and_right, exists_or, exists_eq_left, eq_comm (a := assignment)]

theorem mem_statements_actionConfig {assignment : Assignment} :
    (.declaration .actionConfig, assignment) ∈ (merged toolchains).statements ↔
      ∃ name ∈ Family.actionConfigs.names toolchains,
        assignment = Family.actionConfigs.itemAssignment toolchains name := by
  rw [mem_statements]
  simp only [merged, Family.declared, List.mem_map, List.mem_eraseDups, eq_comm (a := assignment)]

theorem mem_statements_feature {assignment : Assignment} :
    (.declaration .feature, assignment) ∈ (merged toolchains).statements ↔
      ∃ name ∈ Family.features.names toolchains,
        assignment = Family.features.itemAssignment toolchains name := by
  rw [mem_statements]
  simp only [merged, Family.declared, List.mem_map, List.mem_eraseDups, eq_comm (a := assignment)]

/-! ## The variables that are assigned -/

/-- What a variable of an item ends in tells its kind. -/
theorem kind_eq_of_isSuffix {kind kind' : ItemKind} {chars : List Char}
    (hsuffix : kind.suffix.toList <:+ chars) (hsuffix' : kind'.suffix.toList <:+ chars) :
    kind = kind' := by
  rcases List.suffix_or_suffix_of_suffix hsuffix hsuffix' with h | h <;>
    revert h <;> cases kind <;> cases kind' <;> decide

/-- No field is called like a variable of an item. -/
theorem not_isSuffix_field (kind : ItemKind) :
    ∀ target ∈ Toolchain.fieldValues.map (·.1), ¬ kind.suffix.toList <:+ target.toList := by
  cases kind <;> decide

/-- The assignments of a rule, the fields first. -/
theorem assignments_perm :
    (merged toolchains).assignments.Perm
      (Toolchain.fieldValues.map (Toolchain.fieldAssignment toolchains) ++
        ((merged toolchains).actionConfigs.declarations ++
          (merged toolchains).features.declarations)) := by
  rw [List.perm_iff_count]
  intro assignment
  simp only [assignments, statements, declaredStatements, List.map_append, List.map_map,
    Function.comp_def, List.map_id', List.map_cons, List.map_nil, Toolchain.fieldValues,
    List.count_append, List.count_cons, List.count_nil]
  have hconfigs : Toolchain.fieldAssignment toolchains
      ("action_configs", Family.actionConfigs.variableList) =
        (merged toolchains).actionConfigs.references := rfl
  have hfeatures : Toolchain.fieldAssignment toolchains
      ("features", Family.features.variableList) = (merged toolchains).features.references := rfl
  have htexts : Toolchain.textValues.map (Toolchain.fieldAssignment toolchains) =
      (merged toolchains).texts := rfl
  have hlists : Toolchain.listValues.map (Toolchain.fieldAssignment toolchains) =
      (merged toolchains).lists := rfl
  rw [hconfigs, hfeatures, htexts, hlists]
  omega

/-- **Every variable is assigned once.** -/
theorem nodup_targets_merged (hconfigs : DistinctStems (Family.actionConfigs.names toolchains))
    (hfeatures : DistinctStems (Family.features.names toolchains)) :
    ((merged toolchains).assignments.map (·.target)).Nodup := by
  rw [(assignments_perm.map _).nodup_iff, List.map_append, List.map_append, List.map_map]
  have hfields : Toolchain.fieldValues.map
      ((·.target) ∘ Toolchain.fieldAssignment toolchains) = Toolchain.fieldValues.map (·.1) := rfl
  have hends : ∀ {α : Type} [DecidableEq α] (family : Family α) (field : String),
      ∀ target ∈ (family.declared field toolchains).declarations.map (·.target),
        family.kind.suffix.toList <:+ target.toList := by
    intro α _ family field target htarget
    rw [Family.declared, List.map_map] at htarget
    obtain ⟨name, _, rfl⟩ := List.mem_map.mp htarget
    exact family.suffix_isSuffix_identifier name
  rw [hfields]
  refine List.Nodup.append (by decide) (List.Nodup.append ?_ ?_ ?_) ?_
  · exact Family.actionConfigs.nodup_targets_declared hconfigs _
  · exact Family.features.nodup_targets_declared hfeatures _
  · intro target hconfig hfeature
    have hkinds := kind_eq_of_isSuffix (hends _ _ target hconfig) (hends _ _ target hfeature)
    exact absurd hkinds (by decide)
  · intro target hfield hitem
    rcases List.mem_append.mp hitem with hconfig | hfeature
    · exact not_isSuffix_field _ target hfield (hends _ _ target hconfig)
    · exact not_isSuffix_field _ target hfield (hends _ _ target hfeature)

/-- A variable tells the statement that assigns it. -/
theorem statement_eq_of_target_eq {rule : Rule}
    (hnodup : (rule.assignments.map (·.target)).Nodup) {first second : Role × Assignment}
    (hfirst : first ∈ rule.statements) (hsecond : second ∈ rule.statements)
    (htarget : first.2.target = second.2.target) : first = second := by
  rw [assignments, List.map_map] at hnodup
  exact List.inj_on_of_nodup_map hnodup hfirst hsecond htarget

end Rule

end ToolchainMerge
