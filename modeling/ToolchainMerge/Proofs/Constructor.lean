import ToolchainMerge.Proofs.Call
import ToolchainMerge.Proofs.Validation
import ToolchainMerge.Toolchain.Constructor

/-!
# Constructor calls tell values apart

The calls of `Toolchain/Constructor.lean` leave out defaults, write only the first of several
variables of a condition, and name an action now by an attribute and now by a string.  Apart
from two things nothing is lost on the way: two values with one call are equal.

* Flag groups lose variables beyond the first, so they are compared only when they are plain,
  as validation demands (`FlagGroup.toExpr_inj`).
* An action config does not write its config name, and a tool writes an empty path like the
  placeholder.  `ActionConfig.written` replaces both, and configs with one call agree in what
  is written (`ActionConfig.toExpr_eq_iff`).

Every constructor is first brought into the form of a list of parts; its injectivity is then
that of the parts.
-/

namespace ToolchainMerge

open Starlark

/-! ## Lists of values -/

/-- Values with a property that a conversion tells apart are told apart in lists too. -/
theorem map_eq_map_of_injOn {α β : Type} {property : α → Prop} {change : α → β}
    (hinj : ∀ left right, property left → property right → change left = change right →
      left = right) {lefts rights : List α} (hlefts : ∀ left ∈ lefts, property left)
    (hrights : ∀ right ∈ rights, property right) (heq : lefts.map change = rights.map change) :
    lefts = rights := by
  induction lefts generalizing rights with
  | nil => exact (List.map_eq_nil_iff.mp heq.symm).symm
  | cons left lefts ih =>
      cases rights with
      | nil => exact absurd heq (by simp)
      | cons right rights =>
          rw [List.forall_mem_cons] at hlefts hrights
          simp only [List.map_cons, List.cons.injEq] at heq
          rw [hinj left right hlefts.1 hrights.1 heq.1, ih hlefts.2 hrights.2 heq.2]

/-- Conversions that tell apart the same values do so in lists too. -/
theorem map_eq_map_iff_of_eq_iff {α β γ : Type} {change : α → β} {change' : α → γ}
    (hiff : ∀ left right, change left = change right ↔ change' left = change' right)
    {lefts rights : List α} :
    lefts.map change = rights.map change ↔ lefts.map change' = rights.map change' := by
  induction lefts generalizing rights with
  | nil => cases rights <;> simp
  | cons left lefts ih => cases rights <;> simp [hiff, ih]

theorem strExprs_inj {values values' : List String} :
    strExprs values = strExprs values' ↔ values = values' :=
  List.map_inj_right fun _ _ heq => Expr.str.inj heq

/-! ## Names of actions -/

namespace ActionName

theorem nodup_standard : (standard.map identifierStem).Nodup := by
  decide

theorem constant?_eq_some_iff {action constant : String} :
    constant? action = some constant ↔ action ∈ standard ∧ identifierStem action = constant := by
  unfold constant?
  split <;> simp_all

theorem toExpr_inj {action action' : String} (heq : toExpr action = toExpr action') :
    action = action' := by
  unfold toExpr at heq
  cases hconstant : constant? action <;> cases hconstant' : constant? action' <;>
    simp only [hconstant, hconstant', reduceCtorEq, Expr.str.injEq, Expr.ident.injEq,
      String.append_right_inj] at heq
  · exact heq
  · obtain ⟨hmem, hstem⟩ := constant?_eq_some_iff.mp hconstant
    obtain ⟨hmem', hstem'⟩ := constant?_eq_some_iff.mp hconstant'
    exact List.inj_on_of_nodup_map nodup_standard hmem hmem'
      (hstem.trans (heq.trans hstem'.symm))

end ActionName

theorem actionExprs_inj {actions actions' : List String} :
    actionExprs actions = actionExprs actions' ↔ actions = actions' :=
  List.map_inj_right fun _ _ heq => ActionName.toExpr_inj heq

/-! ## Calls as lists of parts -/

theorem MakeVariable.toExpr_eq (exported : MakeVariable) :
    exported.toExpr = .ofParts "make_variable" [
      ("name", textPart (some exported.name)),
      ("value", textPart (some exported.value))] := by
  simp [MakeVariable.toExpr]

theorem ToolPath.toExpr_eq (tool : ToolPath) :
    tool.toExpr = .ofParts "tool_path" [
      ("name", textPart (some tool.name)),
      ("path", textPart (some tool.path))] := by
  simp [ToolPath.toExpr]

theorem ArtifactNamePattern.toExpr_eq (pattern : ArtifactNamePattern) :
    pattern.toExpr = .ofParts "artifact_name_pattern" [
      ("category_name", textPart (some pattern.category)),
      ("prefix", textPart (some pattern.namePrefix)),
      ("extension", textPart (some pattern.extension))] := by
  simp [ArtifactNamePattern.toExpr]

theorem VariableWithValue.toExpr_eq (comparison : VariableWithValue) :
    comparison.toExpr = .ofParts "variable_with_value" [
      ("name", textPart (some comparison.variableName)),
      ("value", textPart (some comparison.value))] := by
  simp [VariableWithValue.toExpr]

theorem WithFeatureSet.toExpr_eq (constraint : WithFeatureSet) :
    constraint.toExpr = .ofParts "with_feature_set" [
      ("features", listPart (strExprs constraint.features)),
      ("not_features", listPart (strExprs constraint.notFeatures))] := by
  simp [WithFeatureSet.toExpr]

theorem FeatureSet.toExpr_eq (set : FeatureSet) :
    set.toExpr = .ofParts "feature_set" [
      ("features", listPart (strExprs set.features))] := by
  simp [FeatureSet.toExpr]

theorem EnvEntry.toExpr_eq (entry : EnvEntry) :
    entry.toExpr = .ofParts "env_entry" [
      ("key", textPart (some entry.key)),
      ("value", textPart (some entry.value))] := by
  simp [EnvEntry.toExpr]

theorem EnvSet.toExpr_eq (set : EnvSet) :
    set.toExpr = .ofParts "env_set" [
      ("actions", listPart (actionExprs set.actions)),
      ("env_entries", listPart (set.entries.map EnvEntry.toExpr)),
      ("with_features", listPart (set.withFeatures.map WithFeatureSet.toExpr))] := by
  simp [EnvSet.toExpr]

theorem FlagGroup.toExprs_eq_map (groups : List FlagGroup) :
    FlagGroup.toExprs groups = groups.map FlagGroup.toExpr := by
  induction groups with
  | nil => rfl
  | cons group groups ih => rw [FlagGroup.toExprs, ih, List.map_cons]

theorem FlagGroup.toExpr_eq (group : FlagGroup) :
    group.toExpr = .ofParts "flag_group" [
      ("flags", listPart (strExprs group.flags)),
      ("flag_groups", listPart (group.groups.map FlagGroup.toExpr)),
      ("iterate_over", textPart group.iterateOver),
      ("expand_if_available", textPart group.ifAllAvailable.head?),
      ("expand_if_not_available", textPart group.ifNoneAvailable.head?),
      ("expand_if_true", textPart group.ifTrue),
      ("expand_if_false", textPart group.ifFalse),
      ("expand_if_equal", group.ifEqual.map VariableWithValue.toExpr)] := by
  obtain ⟨flags, groups, iterateOver, ifAll, ifNone, ifTrue, ifFalse, ifEqual⟩ := group
  cases ifEqual with
  | none =>
      simp [FlagGroup.toExpr, FlagGroup.toExprs_eq_map]
      -- the missing comparison is a part without a value, at the end
      rfl
  | some comparison => simp [FlagGroup.toExpr, FlagGroup.toExprs_eq_map]

theorem FlagSet.toExpr_eq (set : FlagSet) :
    set.toExpr = .ofParts "flag_set" [
      ("actions", listPart (actionExprs set.actions)),
      ("with_features", listPart (set.withFeatures.map WithFeatureSet.toExpr)),
      ("flag_groups", listPart (set.groups.map FlagGroup.toExpr))] := by
  simp [FlagSet.toExpr, FlagGroup.toExprs_eq_map]

theorem Feature.toExpr_eq (feature : Feature) :
    feature.toExpr = .ofParts "feature" [
      ("name", textPart (some feature.name)),
      ("enabled", flagPart feature.enabled),
      ("flag_sets", listPart (feature.flagSets.map FlagSet.toExpr)),
      ("env_sets", listPart (feature.envSets.map EnvSet.toExpr)),
      ("requires", listPart (feature.requires.map FeatureSet.toExpr)),
      ("implies", listPart (strExprs feature.implies)),
      ("provides", listPart (strExprs feature.provides))] := by
  simp [Feature.toExpr]

/-- A tool with the path that is written for it. -/
def Tool.written (tool : Tool) : Tool :=
  { tool with path := if tool.path = "" then Tool.unusedPath else tool.path }

theorem Tool.toExpr_eq (tool : Tool) :
    tool.toExpr = .ofParts "tool" [
      ("path", textPart (some tool.written.path)),
      ("with_features", listPart (tool.withFeatures.map WithFeatureSet.toExpr)),
      ("execution_requirements", listPart (strExprs tool.executionRequirements))] := by
  simp [Tool.toExpr, Tool.written]

theorem ActionConfig.toExpr_eq (config : ActionConfig) :
    config.toExpr = .ofParts "action_config" [
      ("action_name", some (ActionName.toExpr config.actionName)),
      ("enabled", flagPart config.enabled),
      ("flag_sets", listPart (config.flagSets.map FlagSet.toExpr)),
      ("implies", listPart (strExprs config.implies)),
      ("tools", listPart (config.tools.map Tool.toExpr))] := by
  simp [ActionConfig.toExpr]

/-! ## Injectivity -/

theorem MakeVariable.toExpr_inj {left right : MakeVariable} (heq : left.toExpr = right.toExpr) :
    left = right := by
  rw [left.toExpr_eq, right.toExpr_eq] at heq
  have hparts := Expr.parts_eq_of_ofParts_eq heq rfl (by simp)
  cases left
  cases right
  simpa [textPart_inj] using hparts

theorem ToolPath.toExpr_inj {left right : ToolPath} (heq : left.toExpr = right.toExpr) :
    left = right := by
  rw [left.toExpr_eq, right.toExpr_eq] at heq
  have hparts := Expr.parts_eq_of_ofParts_eq heq rfl (by simp)
  cases left
  cases right
  simpa [textPart_inj] using hparts

theorem ArtifactNamePattern.toExpr_inj {left right : ArtifactNamePattern}
    (heq : left.toExpr = right.toExpr) : left = right := by
  rw [left.toExpr_eq, right.toExpr_eq] at heq
  have hparts := Expr.parts_eq_of_ofParts_eq heq rfl (by simp)
  cases left
  cases right
  simpa [textPart_inj] using hparts

theorem VariableWithValue.toExpr_inj {left right : VariableWithValue}
    (heq : left.toExpr = right.toExpr) : left = right := by
  rw [left.toExpr_eq, right.toExpr_eq] at heq
  have hparts := Expr.parts_eq_of_ofParts_eq heq rfl (by simp)
  cases left
  cases right
  simpa [textPart_inj] using hparts

theorem EnvEntry.toExpr_inj {left right : EnvEntry} (heq : left.toExpr = right.toExpr) :
    left = right := by
  rw [left.toExpr_eq, right.toExpr_eq] at heq
  have hparts := Expr.parts_eq_of_ofParts_eq heq rfl (by simp)
  cases left
  cases right
  simpa [textPart_inj] using hparts

theorem WithFeatureSet.toExpr_inj {left right : WithFeatureSet}
    (heq : left.toExpr = right.toExpr) : left = right := by
  rw [left.toExpr_eq, right.toExpr_eq] at heq
  have hparts := Expr.parts_eq_of_ofParts_eq heq rfl (by simp)
  cases left
  cases right
  simpa [listPart_inj, strExprs_inj] using hparts

theorem FeatureSet.toExpr_inj {left right : FeatureSet} (heq : left.toExpr = right.toExpr) :
    left = right := by
  rw [left.toExpr_eq, right.toExpr_eq] at heq
  have hparts := Expr.parts_eq_of_ofParts_eq heq rfl (by simp)
  cases left
  cases right
  simpa [listPart_inj, strExprs_inj] using hparts

theorem EnvSet.toExpr_inj {left right : EnvSet} (heq : left.toExpr = right.toExpr) :
    left = right := by
  rw [left.toExpr_eq, right.toExpr_eq] at heq
  have hparts := Expr.parts_eq_of_ofParts_eq heq rfl (by simp)
  cases left
  cases right
  simpa [listPart_inj, actionExprs_inj, List.map_inj_right fun _ _ => EnvEntry.toExpr_inj,
    List.map_inj_right fun _ _ => WithFeatureSet.toExpr_inj] using hparts

/-! ## Flag groups -/

namespace FlagGroup

theorem eq_toList_head? {α : Type} {elements : List α} (hlength : elements.length ≤ 1) :
    elements = elements.head?.toList := by
  cases elements with
  | nil => rfl
  | cons first rest =>
      rw [List.length_cons] at hlength
      have hrest : rest = [] := List.eq_nil_of_length_eq_zero (by omega)
      rw [hrest]
      rfl

/-- A list of at most one element is known from its first. -/
theorem eq_of_head?_eq {α : Type} {left right : List α} (hleft : left.length ≤ 1)
    (hright : right.length ≤ 1) (heq : left.head? = right.head?) : left = right := by
  calc
    left = left.head?.toList := eq_toList_head? hleft
    _ = right.head?.toList := by rw [heq]
    _ = right := (eq_toList_head? hright).symm

mutual

/-- **Plain groups are told apart**, at every depth. -/
theorem toExpr_inj : (left right : FlagGroup) → left.Plain → right.Plain →
    left.toExpr = right.toExpr → left = right
  | ⟨_, groups, _, _, _, _, _, _⟩, ⟨_, groups', _, _, _, _, _, _⟩, hleft, hright, heq => by
      rw [toExpr_eq, toExpr_eq] at heq
      have hparts := Expr.parts_eq_of_ofParts_eq heq rfl (by simp)
      simp only [listPart_inj, textPart_inj, strExprs_inj, List.cons.injEq, Prod.mk.injEq,
        true_and, and_true] at hparts
      obtain ⟨rfl, hgroups, rfl, hall, hnone, rfl, rfl, hequal⟩ := hparts
      obtain ⟨hall_le, hnone_le, hnested⟩ := plain_iff.mp hleft
      obtain ⟨hall_le', hnone_le', hnested'⟩ := plain_iff.mp hright
      obtain rfl := map_toExpr_inj groups groups' hnested hnested' hgroups
      obtain rfl := eq_of_head?_eq hall_le hall_le' hall
      obtain rfl := eq_of_head?_eq hnone_le hnone_le' hnone
      obtain rfl := Option.map_injective (fun _ _ => VariableWithValue.toExpr_inj) hequal
      rfl

theorem map_toExpr_inj : (lefts rights : List FlagGroup) → (∀ left ∈ lefts, left.Plain) →
    (∀ right ∈ rights, right.Plain) → lefts.map toExpr = rights.map toExpr → lefts = rights
  | [], [], _, _, _ => rfl
  | [], _ :: _, _, _, heq => absurd heq (by simp)
  | _ :: _, [], _, _, heq => absurd heq (by simp)
  | left :: lefts, right :: rights, hlefts, hrights, heq => by
      rw [List.forall_mem_cons] at hlefts hrights
      simp only [List.map_cons, List.cons.injEq] at heq
      rw [toExpr_inj left right hlefts.1 hrights.1 heq.1,
        map_toExpr_inj lefts rights hlefts.2 hrights.2 heq.2]

end

end FlagGroup

/-! ## Features and action configs -/

theorem FlagSet.toExpr_inj {left right : FlagSet} (hleft : ∀ group ∈ left.groups, group.Plain)
    (hright : ∀ group ∈ right.groups, group.Plain) (heq : left.toExpr = right.toExpr) :
    left = right := by
  rw [left.toExpr_eq, right.toExpr_eq] at heq
  have hparts := Expr.parts_eq_of_ofParts_eq heq rfl (by simp)
  obtain ⟨actions, withFeatures, groups⟩ := left
  obtain ⟨actions', withFeatures', groups'⟩ := right
  simp only [listPart_inj, actionExprs_inj, List.map_inj_right fun _ _ =>
    WithFeatureSet.toExpr_inj, List.cons.injEq, Prod.mk.injEq, true_and, and_true] at hparts
  obtain ⟨rfl, rfl, hgroups⟩ := hparts
  obtain rfl := FlagGroup.map_toExpr_inj groups groups' hleft hright hgroups
  rfl

theorem FlagSet.map_toExpr_inj {lefts rights : List FlagSet} (hlefts : FlagSet.AllPlain lefts)
    (hrights : FlagSet.AllPlain rights)
    (heq : lefts.map FlagSet.toExpr = rights.map FlagSet.toExpr) : lefts = rights :=
  map_eq_map_of_injOn (fun _ _ => FlagSet.toExpr_inj) hlefts hrights heq

/-- **Features are told apart**, if their flag groups are plain. -/
theorem Feature.toExpr_inj {left right : Feature} (hleft : FlagSet.AllPlain left.flagSets)
    (hright : FlagSet.AllPlain right.flagSets) (heq : left.toExpr = right.toExpr) :
    left = right := by
  rw [left.toExpr_eq, right.toExpr_eq] at heq
  have hparts := Expr.parts_eq_of_ofParts_eq heq rfl (by simp)
  cases left
  cases right
  simp only [textPart_inj, flagPart_inj, listPart_inj, strExprs_inj, Option.some.injEq,
    List.map_inj_right fun _ _ => EnvSet.toExpr_inj,
    List.map_inj_right fun _ _ => FeatureSet.toExpr_inj,
    List.cons.injEq, Prod.mk.injEq, true_and, and_true] at hparts
  obtain ⟨rfl, rfl, hflagSets, rfl, rfl, rfl, rfl⟩ := hparts
  obtain rfl := FlagSet.map_toExpr_inj hleft hright hflagSets
  rfl

theorem Tool.toExpr_eq_iff {left right : Tool} :
    left.toExpr = right.toExpr ↔ left.written = right.written := by
  rw [left.toExpr_eq, right.toExpr_eq]
  constructor
  · intro heq
    have hparts := Expr.parts_eq_of_ofParts_eq heq rfl (by simp)
    simp only [textPart_inj, listPart_inj, strExprs_inj, Option.some.injEq,
      List.map_inj_right fun _ _ => WithFeatureSet.toExpr_inj,
      List.cons.injEq, Prod.mk.injEq, true_and, and_true] at hparts
    obtain ⟨hpath, hfeatures, hrequirements⟩ := hparts
    simp only [Tool.written, Tool.mk.injEq] at hpath ⊢
    exact ⟨hpath, hfeatures, hrequirements⟩
  · intro heq
    simp only [Tool.written, Tool.mk.injEq] at heq ⊢
    rw [heq.1, heq.2.1, heq.2.2]

/-- An action config as it is written: without its config name, and with the paths that are
written for its tools. -/
def ActionConfig.written (config : ActionConfig) : ActionConfig :=
  { config with configName := "", tools := config.tools.map Tool.written }

/-- **Action configs are told apart up to what is not written**, if their flag groups are
plain. -/
theorem ActionConfig.toExpr_eq_iff {left right : ActionConfig}
    (hleft : FlagSet.AllPlain left.flagSets) (hright : FlagSet.AllPlain right.flagSets) :
    left.toExpr = right.toExpr ↔ left.written = right.written := by
  have htools : left.tools.map Tool.toExpr = right.tools.map Tool.toExpr ↔
      left.tools.map Tool.written = right.tools.map Tool.written :=
    map_eq_map_iff_of_eq_iff fun _ _ => Tool.toExpr_eq_iff
  constructor
  · intro heq
    rw [left.toExpr_eq, right.toExpr_eq] at heq
    have hparts := Expr.parts_eq_of_ofParts_eq heq rfl (by simp)
    simp only [flagPart_inj, listPart_inj, strExprs_inj, htools, Option.some.injEq,
      List.cons.injEq, Prod.mk.injEq, true_and, and_true] at hparts
    obtain ⟨hname, henabled, hflagSets, himplies, hwritten⟩ := hparts
    simp only [ActionConfig.written, ActionConfig.mk.injEq, true_and]
    exact ⟨ActionName.toExpr_inj hname, henabled, hwritten,
      FlagSet.map_toExpr_inj hleft hright hflagSets, himplies⟩
  · intro heq
    simp only [ActionConfig.written, ActionConfig.mk.injEq, true_and] at heq
    obtain ⟨hname, henabled, hwritten, hflagSets, himplies⟩ := heq
    rw [left.toExpr_eq, right.toExpr_eq, hname, henabled, hflagSets, himplies, htools.mpr hwritten]

end ToolchainMerge
