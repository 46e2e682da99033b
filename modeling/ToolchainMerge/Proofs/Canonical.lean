import ToolchainMerge.Proofs.Component

/-!
# Canonical calls

A constructor is called with the keywords that it declares, in its own order, and without those
that would only repeat a default.  `Canonical` says this of one call; the declared keywords and
what a component has to say for each of them are listed in `Component.fields`.

Components contain components, flag groups at any depth.  The calls inside an expression
(`Expr.calls`) stand in the same order as the components inside a component (`Component.nested`),
and each of them is the call of its component (`Component.calls_toExpr`).  So what holds of the
call of any component by itself holds at every depth.

`canonical_calls` is the main statement.
-/

namespace ToolchainMerge

open Starlark

/-! ## One call -/

namespace Starlark

/-- The arguments of a call whose constructor declares `fields`.  A field is a keyword with whether
there is something to write for it. -/
structure Canonical (fields : List (String × Bool)) (args : List (String × Expr)) : Prop where
  nodup_keywords : (args.map (·.1)).Nodup
  in_order : (args.map (·.1)).Sublist (fields.map (·.1))
  not_default : ∀ argument ∈ args,
    argument.2 ≠ .list [] ∧ argument.2 ≠ .bool false ∧ argument.2 ≠ .none
  present_iff : ∀ field ∈ fields, field.1 ∈ args.map (·.1) ↔ field.2 = true

/-- A part that is not there merely to repeat a default. -/
def IsPlainPart (part : Option Expr) : Prop :=
  ∀ value ∈ part, value ≠ .list [] ∧ value ≠ .bool false ∧ value ≠ .none

@[simp] theorem isPlainPart_textPart (text : Option String) : IsPlainPart (textPart text) := by
  intro value hvalue
  obtain ⟨_, _, rfl⟩ := Option.map_eq_some_iff.mp hvalue
  simp

@[simp] theorem isPlainPart_flagPart (enabled : Bool) : IsPlainPart (flagPart enabled) := by
  cases enabled <;> simp [IsPlainPart, flagPart]

@[simp] theorem isPlainPart_listPart (items : List Expr) : IsPlainPart (listPart items) := by
  cases items <;> simp [IsPlainPart, listPart]

@[simp] theorem isSome_textPart (text : Option String) : (textPart text).isSome = text.isSome :=
  Option.isSome_map

@[simp] theorem isSome_flagPart (enabled : Bool) : (flagPart enabled).isSome = enabled := by
  cases enabled <;> rfl

@[simp] theorem isSome_listPart (items : List Expr) :
    (listPart items).isSome = !items.isEmpty := by
  cases items <;> rfl

theorem map_keyword_presentParts (parts : List (String × Option Expr)) :
    (presentParts parts).map (·.1) = (parts.filter (·.2.isSome)).map (·.1) := by
  induction parts with
  | nil => rfl
  | cons part parts ih =>
      obtain ⟨keyword, value⟩ := part
      cases value with
      | none => exact ih
      | some value => exact congrArg (keyword :: ·) ih

/-- **Parts make a canonical call**, if their keywords differ. -/
theorem canonical_presentParts {parts : List (String × Option Expr)}
    (hnodup : (parts.map (·.1)).Nodup) (hplain : ∀ part ∈ parts, IsPlainPart part.2) :
    Canonical (parts.map fun part => (part.1, part.2.isSome)) (presentParts parts) := by
  have hsublist : ((presentParts parts).map (·.1)).Sublist (parts.map (·.1)) := by
    rw [map_keyword_presentParts]
    exact List.filter_sublist.map _
  refine ⟨hsublist.nodup hnodup, ?_, ?_, ?_⟩
  · rw [List.map_map]
    exact hsublist
  · intro argument hargument
    exact hplain _ (mem_presentParts.mp hargument) _ rfl
  · rw [List.forall_mem_map]
    intro part hpart
    rw [map_keyword_presentParts]
    constructor
    · -- another part with this keyword would be a second one
      intro hkeyword
      obtain ⟨other, hother, heq⟩ := List.mem_map.mp hkeyword
      obtain ⟨hmem, hsome⟩ := List.mem_filter.mp hother
      rw [← List.inj_on_of_nodup_map hnodup hmem hpart heq]
      exact hsome
    · intro hsome
      exact List.mem_map_of_mem (List.mem_filter.mpr ⟨hpart, hsome⟩)

end Starlark

/-! ## Calls at every depth -/

namespace Starlark.Expr

mutual

/-- The calls in an expression at every depth, each before the calls inside it. -/
def calls : Expr → List Expr
  | .str _ | .bool _ | .none | .ident _ => []
  | .list items => itemCalls items
  | .call name args => .call name args :: argCalls args

/-- The calls in the items of a list. -/
def itemCalls : List Expr → List Expr
  | [] => []
  | item :: items => calls item ++ itemCalls items

/-- The calls in the arguments of a call. -/
def argCalls : List (String × Expr) → List Expr
  | [] => []
  | (_, value) :: args => calls value ++ argCalls args

end

/-- The calls in a part of a call. -/
def partCalls : Option Expr → List Expr
  | some value => calls value
  | Option.none => []

theorem itemCalls_map {α : Type} (toExpr : α → Expr) (values : List α) :
    itemCalls (values.map toExpr) = values.flatMap fun value => (toExpr value).calls := by
  induction values with
  | nil => rfl
  | cons value values ih => rw [List.map_cons, itemCalls, ih, List.flatMap_cons]

theorem argCalls_presentParts (parts : List (String × Option Expr)) :
    argCalls (presentParts parts) = parts.flatMap fun part => partCalls part.2 := by
  induction parts with
  | nil => rfl
  | cons part parts ih =>
      obtain ⟨keyword, value⟩ := part
      cases value with
      | none => exact ih
      | some value => exact congrArg (value.calls ++ ·) ih

theorem calls_ofParts (name : String) (parts : List (String × Option Expr)) :
    (ofParts name parts).calls =
      ofParts name parts :: parts.flatMap fun part => partCalls part.2 := by
  rw [ofParts, calls, argCalls_presentParts]

@[simp] theorem partCalls_some (value : Expr) : partCalls (some value) = value.calls := rfl

@[simp] theorem partCalls_textPart (text : Option String) : partCalls (textPart text) = [] := by
  cases text <;> rfl

@[simp] theorem partCalls_flagPart (enabled : Bool) : partCalls (flagPart enabled) = [] := by
  cases enabled <;> rfl

@[simp] theorem partCalls_listPart (items : List Expr) :
    partCalls (listPart items) = itemCalls items := by
  cases items <;> rfl

end Starlark.Expr

open Expr

@[simp] theorem itemCalls_strExprs (values : List String) : itemCalls (strExprs values) = [] := by
  rw [strExprs, itemCalls_map]
  exact List.flatMap_eq_nil_iff.mpr fun _ _ => rfl

@[simp] theorem ActionName.calls_toExpr (action : String) :
    (ActionName.toExpr action).calls = [] := by
  unfold ActionName.toExpr
  split <;> rfl

@[simp] theorem itemCalls_actionExprs (actions : List String) :
    itemCalls (actionExprs actions) = [] := by
  rw [actionExprs, itemCalls_map]
  exact List.flatMap_eq_nil_iff.mpr fun action _ => ActionName.calls_toExpr action

@[simp] theorem ActionName.isPlainPart_toExpr (action : String) :
    IsPlainPart (some (ActionName.toExpr action)) := by
  unfold ActionName.toExpr
  split <;> simp [IsPlainPart]

/-! ## Components inside components -/

/-- A set of variables and the components inside it. -/
def EnvSet.components (set : EnvSet) : List Component :=
  .envSet set :: (set.entries.map .envEntry ++ set.withFeatures.map .withFeatureSet)

namespace FlagGroup

mutual

/-- A flag group and the components inside it, in the order in which they are written. -/
def components : FlagGroup → List Component
  | ⟨flags, groups, iterateOver, ifAll, ifNone, ifTrue, ifFalse, ifEqual⟩ =>
      .flagGroup ⟨flags, groups, iterateOver, ifAll, ifNone, ifTrue, ifFalse, ifEqual⟩ ::
        (componentsAmong groups ++ ifEqual.toList.map .variableWithValue)

/-- The components of some flag groups, group by group. -/
def componentsAmong : List FlagGroup → List Component
  | [] => []
  | group :: groups => components group ++ componentsAmong groups

end

end FlagGroup

/-- A flag set and the components inside it. -/
def FlagSet.components (set : FlagSet) : List Component :=
  .flagSet set ::
    (set.withFeatures.map .withFeatureSet ++ set.groups.flatMap FlagGroup.components)

/-- A tool and the components inside it. -/
def Tool.components (tool : Tool) : List Component :=
  .tool tool :: tool.withFeatures.map .withFeatureSet

namespace Component

/-- A component and all components inside it, at every depth, in the order in which they are
written. -/
def nested : Component → List Component
  | .envSet set => set.components
  | .flagGroup group => group.components
  | .flagSet set => set.components
  | .tool value => value.components
  | .feature value =>
      .feature value :: (value.flagSets.flatMap FlagSet.components ++
        value.envSets.flatMap EnvSet.components ++ value.requires.map .featureSet)
  | .actionConfig config =>
      .actionConfig config ::
        (config.flagSets.flatMap FlagSet.components ++ config.tools.flatMap Tool.components)
  | component => [component]

/-- The keywords of the constructor in the order in which it declares them, each with whether the
component has something to write for it.  A list needs items for that, a flag has to be set and an
option to be present.  Keywords without a default are always written. -/
def fields : Component → List (String × Bool)
  | .makeVariable _ => [("name", true), ("value", true)]
  | .toolPath _ => [("name", true), ("path", true)]
  | .artifactNamePattern _ => [("category_name", true), ("prefix", true), ("extension", true)]
  | .variableWithValue _ => [("name", true), ("value", true)]
  | .withFeatureSet constraint =>
      [("features", !constraint.features.isEmpty),
        ("not_features", !constraint.notFeatures.isEmpty)]
  | .featureSet set => [("features", !set.features.isEmpty)]
  | .envEntry _ => [("key", true), ("value", true)]
  | .envSet set =>
      [("actions", !set.actions.isEmpty), ("env_entries", !set.entries.isEmpty),
        ("with_features", !set.withFeatures.isEmpty)]
  | .flagGroup group =>
      [("flags", !group.flags.isEmpty), ("flag_groups", !group.groups.isEmpty),
        ("iterate_over", group.iterateOver.isSome),
        ("expand_if_available", !group.ifAllAvailable.isEmpty),
        ("expand_if_not_available", !group.ifNoneAvailable.isEmpty),
        ("expand_if_true", group.ifTrue.isSome), ("expand_if_false", group.ifFalse.isSome),
        ("expand_if_equal", group.ifEqual.isSome)]
  | .flagSet set =>
      [("actions", !set.actions.isEmpty), ("with_features", !set.withFeatures.isEmpty),
        ("flag_groups", !set.groups.isEmpty)]
  | .feature value =>
      [("name", true), ("enabled", value.enabled), ("flag_sets", !value.flagSets.isEmpty),
        ("env_sets", !value.envSets.isEmpty), ("requires", !value.requires.isEmpty),
        ("implies", !value.implies.isEmpty), ("provides", !value.provides.isEmpty)]
  | .tool value =>
      [("path", true), ("with_features", !value.withFeatures.isEmpty),
        ("execution_requirements", !value.executionRequirements.isEmpty)]
  | .actionConfig config =>
      [("action_name", true), ("enabled", config.enabled),
        ("flag_sets", !config.flagSets.isEmpty), ("implies", !config.implies.isEmpty),
        ("tools", !config.tools.isEmpty)]

end Component

/-! ## The call of a component -/

@[simp] theorem isEmpty_strExprs (values : List String) :
    (strExprs values).isEmpty = values.isEmpty :=
  List.isEmpty_map

@[simp] theorem isEmpty_actionExprs (actions : List String) :
    (actionExprs actions).isEmpty = actions.isEmpty :=
  List.isEmpty_map

/-- A list has a first element if it has any. -/
theorem isSome_head?_eq {α : Type} (elements : List α) :
    elements.head?.isSome = !elements.isEmpty := by
  cases elements <;> rfl

theorem VariableWithValue.isPlainPart_map_toExpr (comparison : Option VariableWithValue) :
    IsPlainPart (comparison.map VariableWithValue.toExpr) := by
  intro value hvalue
  obtain ⟨comparison, _, rfl⟩ := Option.map_eq_some_iff.mp hvalue
  rw [comparison.toExpr_eq]
  simp [ofParts]

namespace Component

theorem exists_canonical_of_parts {component : Component} {parts : List (String × Option Expr)}
    (hcall : component.toExpr = .ofParts component.constructor parts)
    (hfields : (parts.map fun part => (part.1, part.2.isSome)) = component.fields)
    (hnodup : (parts.map (·.1)).Nodup) (hplain : ∀ part ∈ parts, IsPlainPart part.2) :
    ∃ args, component.toExpr = .call component.constructor args ∧
      Canonical component.fields args := by
  refine ⟨presentParts parts, hcall, ?_⟩
  rw [← hfields]
  exact canonical_presentParts hnodup hplain

/-- **The call of a component is canonical.** -/
theorem exists_canonical (component : Component) :
    ∃ args, component.toExpr = .call component.constructor args ∧
      Canonical component.fields args := by
  cases component with
  | makeVariable value =>
      exact exists_canonical_of_parts value.toExpr_eq (by simp [fields]) (by simp) (by simp)
  | toolPath value =>
      exact exists_canonical_of_parts value.toExpr_eq (by simp [fields]) (by simp) (by simp)
  | artifactNamePattern value =>
      exact exists_canonical_of_parts value.toExpr_eq (by simp [fields]) (by simp) (by simp)
  | variableWithValue value =>
      exact exists_canonical_of_parts value.toExpr_eq (by simp [fields]) (by simp) (by simp)
  | withFeatureSet value =>
      exact exists_canonical_of_parts value.toExpr_eq (by simp [fields]) (by simp) (by simp)
  | featureSet value =>
      exact exists_canonical_of_parts value.toExpr_eq (by simp [fields]) (by simp) (by simp)
  | envEntry value =>
      exact exists_canonical_of_parts value.toExpr_eq (by simp [fields]) (by simp) (by simp)
  | envSet value =>
      exact exists_canonical_of_parts value.toExpr_eq (by simp [fields]) (by simp) (by simp)
  | flagGroup value =>
      -- of the available variables only the first is written
      exact exists_canonical_of_parts value.toExpr_eq (by simp [fields, isSome_head?_eq])
        (by simp) (by simp [VariableWithValue.isPlainPart_map_toExpr])
  | flagSet value =>
      exact exists_canonical_of_parts value.toExpr_eq (by simp [fields]) (by simp) (by simp)
  | feature value =>
      exact exists_canonical_of_parts value.toExpr_eq (by simp [fields]) (by simp) (by simp)
  | tool value =>
      exact exists_canonical_of_parts value.toExpr_eq (by simp [fields]) (by simp) (by simp)
  | actionConfig value =>
      exact exists_canonical_of_parts value.toExpr_eq (by simp [fields]) (by simp) (by simp)

end Component

/-! ## The calls of a component -/

section Lists

variable {α : Type} {toExpr : α → Expr}

/-- If each value has the calls of some components, a list has those of all of them. -/
theorem itemCalls_map_eq {components : α → List Component}
    (hcalls : ∀ value, (toExpr value).calls = (components value).map Component.toExpr)
    (values : List α) :
    itemCalls (values.map toExpr) = (values.flatMap components).map Component.toExpr := by
  rw [itemCalls_map, List.map_flatMap]
  exact List.flatMap_congr fun value _ => hcalls value

/-- The same for values that have no components inside them. -/
theorem itemCalls_map_eq_of_leaf (component : α → Component)
    (hcalls : ∀ value, (toExpr value).calls = [(component value).toExpr]) (values : List α) :
    itemCalls (values.map toExpr) = (values.map component).map Component.toExpr := by
  have hmap : values.map component = values.flatMap fun value => [component value] :=
    List.map_eq_flatMap
  rw [hmap]
  exact itemCalls_map_eq hcalls values

end Lists

theorem MakeVariable.calls_toExpr (exported : MakeVariable) :
    exported.toExpr.calls = [exported.toExpr] := by
  rw [exported.toExpr_eq, calls_ofParts]
  simp

theorem ToolPath.calls_toExpr (tool : ToolPath) : tool.toExpr.calls = [tool.toExpr] := by
  rw [tool.toExpr_eq, calls_ofParts]
  simp

theorem ArtifactNamePattern.calls_toExpr (pattern : ArtifactNamePattern) :
    pattern.toExpr.calls = [pattern.toExpr] := by
  rw [pattern.toExpr_eq, calls_ofParts]
  simp

theorem VariableWithValue.calls_toExpr (comparison : VariableWithValue) :
    comparison.toExpr.calls = [comparison.toExpr] := by
  rw [comparison.toExpr_eq, calls_ofParts]
  simp

theorem WithFeatureSet.calls_toExpr (constraint : WithFeatureSet) :
    constraint.toExpr.calls = [constraint.toExpr] := by
  rw [constraint.toExpr_eq, calls_ofParts]
  simp

theorem FeatureSet.calls_toExpr (set : FeatureSet) : set.toExpr.calls = [set.toExpr] := by
  rw [set.toExpr_eq, calls_ofParts]
  simp

theorem EnvEntry.calls_toExpr (entry : EnvEntry) : entry.toExpr.calls = [entry.toExpr] := by
  rw [entry.toExpr_eq, calls_ofParts]
  simp

theorem EnvSet.calls_toExpr (set : EnvSet) :
    set.toExpr.calls = set.components.map Component.toExpr := by
  calc
    set.toExpr.calls = set.toExpr :: (itemCalls (set.entries.map EnvEntry.toExpr) ++
        itemCalls (set.withFeatures.map WithFeatureSet.toExpr)) := by
      rw [set.toExpr_eq, calls_ofParts]
      simp
    _ = set.components.map Component.toExpr := by
      rw [itemCalls_map_eq_of_leaf .envEntry EnvEntry.calls_toExpr,
        itemCalls_map_eq_of_leaf .withFeatureSet WithFeatureSet.calls_toExpr,
        ← List.map_append]
      rfl

namespace FlagGroup

theorem partCalls_ifEqual (ifEqual : Option VariableWithValue) :
    partCalls (ifEqual.map VariableWithValue.toExpr) =
      (ifEqual.toList.map .variableWithValue).map Component.toExpr := by
  cases ifEqual with
  | none => rfl
  | some comparison => exact comparison.calls_toExpr

mutual

theorem calls_toExpr : (group : FlagGroup) →
    group.toExpr.calls = group.components.map Component.toExpr
  | ⟨flags, groups, iterateOver, ifAll, ifNone, ifTrue, ifFalse, ifEqual⟩ => by
      rw [toExpr_eq, calls_ofParts, ← toExpr_eq]
      simp [components, itemCalls_map_toExpr groups, partCalls_ifEqual, Component.toExpr]

/-- The calls of the groups inside a group. -/
theorem itemCalls_map_toExpr : (groups : List FlagGroup) →
    itemCalls (groups.map toExpr) = (componentsAmong groups).map Component.toExpr
  | [] => rfl
  | group :: groups => by
      rw [List.map_cons, itemCalls, calls_toExpr group, itemCalls_map_toExpr groups,
        componentsAmong, List.map_append]

end

end FlagGroup

theorem FlagSet.calls_toExpr (set : FlagSet) :
    set.toExpr.calls = set.components.map Component.toExpr := by
  calc
    set.toExpr.calls = set.toExpr :: (itemCalls (set.withFeatures.map WithFeatureSet.toExpr) ++
        itemCalls (set.groups.map FlagGroup.toExpr)) := by
      rw [set.toExpr_eq, calls_ofParts]
      simp
    _ = set.components.map Component.toExpr := by
      rw [itemCalls_map_eq_of_leaf .withFeatureSet WithFeatureSet.calls_toExpr,
        itemCalls_map_eq FlagGroup.calls_toExpr, ← List.map_append]
      rfl

theorem Tool.calls_toExpr (tool : Tool) :
    tool.toExpr.calls = tool.components.map Component.toExpr := by
  calc
    tool.toExpr.calls =
        tool.toExpr :: itemCalls (tool.withFeatures.map WithFeatureSet.toExpr) := by
      rw [tool.toExpr_eq, calls_ofParts]
      simp
    _ = tool.components.map Component.toExpr := by
      rw [itemCalls_map_eq_of_leaf .withFeatureSet WithFeatureSet.calls_toExpr]
      rfl

namespace Component

/-- **The calls of a component are the calls of the components inside it.** -/
theorem calls_toExpr (component : Component) :
    component.toExpr.calls = component.nested.map toExpr := by
  cases component with
  | makeVariable value => exact value.calls_toExpr
  | toolPath value => exact value.calls_toExpr
  | artifactNamePattern value => exact value.calls_toExpr
  | variableWithValue value => exact value.calls_toExpr
  | withFeatureSet value => exact value.calls_toExpr
  | featureSet value => exact value.calls_toExpr
  | envEntry value => exact value.calls_toExpr
  | envSet value => exact value.calls_toExpr
  | flagGroup value => exact value.calls_toExpr
  | flagSet value => exact value.calls_toExpr
  | tool value => exact value.calls_toExpr
  | feature value =>
      calc
        value.toExpr.calls = value.toExpr :: (itemCalls (value.flagSets.map FlagSet.toExpr) ++
            itemCalls (value.envSets.map EnvSet.toExpr) ++
            itemCalls (value.requires.map FeatureSet.toExpr)) := by
          rw [value.toExpr_eq, calls_ofParts]
          simp
        _ = (nested (.feature value)).map toExpr := by
          rw [itemCalls_map_eq FlagSet.calls_toExpr, itemCalls_map_eq EnvSet.calls_toExpr,
            itemCalls_map_eq_of_leaf .featureSet FeatureSet.calls_toExpr,
            ← List.map_append, ← List.map_append]
          rfl
  | actionConfig config =>
      calc
        config.toExpr.calls =
            config.toExpr :: (itemCalls (config.flagSets.map FlagSet.toExpr) ++
              itemCalls (config.tools.map Tool.toExpr)) := by
          rw [config.toExpr_eq, calls_ofParts]
          simp
        _ = (nested (.actionConfig config)).map toExpr := by
          rw [itemCalls_map_eq FlagSet.calls_toExpr, itemCalls_map_eq Tool.calls_toExpr,
            ← List.map_append]
          rfl

/-- The calls come in the order in which they are written, constraints before groups. -/
example :
    (nested (.flagSet ⟨["strip"], [⟨["opt"], []⟩],
      [⟨[], [⟨["-s"], [], none, [], [], none, none, some ⟨"mode", "all"⟩⟩], none, [], [], none,
        none, none⟩]⟩)).map constructor =
      ["flag_set", "with_feature_set", "flag_group", "flag_group", "variable_with_value"] := by
  decide

/-- A call that is what a component is written as, with canonical arguments. -/
structure IsCanonicalCall (call : Expr) (component : Component) : Prop where
  eq_toExpr : call = component.toExpr
  canonical : ∃ args, call = .call component.constructor args ∧ Canonical component.fields args

/-- **Every call in the Starlark of components is canonical**, at every depth: of one component,
and of a list of them.  The calls stand one for one for the components and those inside them. -/
theorem canonical_calls (component : Component) (components : List Component) :
    List.Forall₂ IsCanonicalCall component.toExpr.calls component.nested ∧
      List.Forall₂ IsCanonicalCall (Expr.list (components.map toExpr)).calls
        (components.flatMap nested) := by
  have hpart : ∀ part : Component, IsCanonicalCall part.toExpr part := by
    intro part
    exact ⟨rfl, part.exists_canonical⟩
  have hparts : ∀ parts : List Component,
      List.Forall₂ IsCanonicalCall (parts.map toExpr) parts := by
    intro parts
    exact List.forall₂_map_left_iff.mpr (List.forall₂_same.mpr fun part _ => hpart part)
  constructor
  · rw [component.calls_toExpr]
    exact hparts component.nested
  · rw [calls, itemCalls_map_eq calls_toExpr]
    exact hparts (components.flatMap nested)

end Component

end ToolchainMerge
