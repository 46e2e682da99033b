import ToolchainMerge.Proofs.Constructor
import ToolchainMerge.Rule.File

/-!
# Names in expressions

An expression reads the names of variables and of the functions that it calls, at any depth.
`Expr.BuiltFrom called read keyword` says of which kinds they and the keywords of arguments
are; `Expr.UsesOnly known keyword` makes no difference between functions and variables.

The expressions of a toolchain call the constructors that a rule file loads and read the
constants of the standard actions.  This is proved constructor by constructor, from the parts.
-/

namespace ToolchainMerge

open Starlark

namespace Starlark.Expr

/-! ## What an expression reads -/

mutual

/-- The names that an expression reads. -/
def names : Expr → List String
  | .str _ | .bool _ | .none => []
  | .ident name => [name]
  | .list items => itemNames items
  | .call name args => name :: argNames args

/-- The names that the items of a list read. -/
def itemNames : List Expr → List String
  | [] => []
  | item :: items => names item ++ itemNames items

/-- The names that the arguments of a call read. -/
def argNames : List (String × Expr) → List String
  | [] => []
  | (_, value) :: args => names value ++ argNames args

end

/-- An expression that calls functions, reads variables and has keywords of certain kinds
only. -/
inductive BuiltFrom (called read keyword : String → Prop) : Expr → Prop
  | str (value : String) : BuiltFrom called read keyword (.str value)
  | bool (value : Bool) : BuiltFrom called read keyword (.bool value)
  | none : BuiltFrom called read keyword .none
  | ident {name : String} (hname : read name) : BuiltFrom called read keyword (.ident name)
  | list {items : List Expr} (hitems : ∀ item ∈ items, BuiltFrom called read keyword item) :
      BuiltFrom called read keyword (.list items)
  | call {name : String} {args : List (String × Expr)} (hname : called name)
      (hkeywords : ∀ argument ∈ args, keyword argument.1)
      (hvalues : ∀ argument ∈ args, BuiltFrom called read keyword argument.2) :
      BuiltFrom called read keyword (.call name args)

/-- An expression in which only names and keywords of certain kinds occur. -/
abbrev UsesOnly (known keyword : String → Prop) (expr : Expr) : Prop :=
  expr.BuiltFrom known known keyword

variable {known called read keyword : String → Prop}

theorem BuiltFrom.mono {called' read' keyword' : String → Prop}
    (hcalled : ∀ name, called name → called' name) (hread : ∀ name, read name → read' name)
    (hkeyword : ∀ name, keyword name → keyword' name) {expr : Expr}
    (hexpr : expr.BuiltFrom called read keyword) : expr.BuiltFrom called' read' keyword' := by
  induction hexpr with
  | str value => exact .str value
  | bool value => exact .bool value
  | none => exact .none
  | ident hname => exact .ident (hread _ hname)
  | list _ ih => exact .list ih
  | call hname hkeywords _ ih =>
      exact .call (hcalled _ hname) (fun argument hargument =>
        hkeyword _ (hkeywords argument hargument)) ih

theorem UsesOnly.mono {known' keyword' : String → Prop} (hknown : ∀ name, known name → known' name)
    (hkeyword : ∀ name, keyword name → keyword' name) {expr : Expr}
    (hexpr : expr.UsesOnly known keyword) : expr.UsesOnly known' keyword' :=
  BuiltFrom.mono hknown hknown hkeyword hexpr

mutual

theorem known_of_mem_names : (expr : Expr) → expr.UsesOnly known keyword →
    ∀ name ∈ expr.names, known name
  | .str _, _ => List.forall_mem_nil _
  | .bool _, _ => List.forall_mem_nil _
  | .none, _ => List.forall_mem_nil _
  | .ident _, .ident hname => List.forall_mem_singleton.mpr hname
  | .list items, .list hitems => known_of_mem_itemNames items hitems
  | .call _ args, .call hname _ hvalues =>
      List.forall_mem_cons.mpr ⟨hname, known_of_mem_argNames args hvalues⟩

theorem known_of_mem_itemNames : (items : List Expr) →
    (∀ item ∈ items, item.UsesOnly known keyword) → ∀ name ∈ itemNames items, known name
  | [], _ => List.forall_mem_nil _
  | item :: items, hitems => by
      rw [List.forall_mem_cons] at hitems
      exact List.forall_mem_append.mpr
        ⟨known_of_mem_names item hitems.1, known_of_mem_itemNames items hitems.2⟩

theorem known_of_mem_argNames : (args : List (String × Expr)) →
    (∀ argument ∈ args, argument.2.UsesOnly known keyword) → ∀ name ∈ argNames args, known name
  | [], _ => List.forall_mem_nil _
  | (_, value) :: args, hargs => by
      rw [List.forall_mem_cons] at hargs
      exact List.forall_mem_append.mpr
        ⟨known_of_mem_names value hargs.1, known_of_mem_argNames args hargs.2⟩

end

theorem itemNames_map_ident (idents : List String) :
    itemNames (idents.map .ident) = idents := by
  induction idents with
  | nil => rfl
  | cons name idents ih =>
      rw [List.map_cons, itemNames, ih]
      rfl

/-! ## Parts -/

/-- A part of a call that is built from the given names and keywords, if it is present. -/
def PartBuiltFrom (called read keyword : String → Prop) (part : Option Expr) : Prop :=
  ∀ value ∈ part, value.BuiltFrom called read keyword

@[simp] theorem partBuiltFrom_some {value : Expr} :
    PartBuiltFrom called read keyword (some value) ↔ value.BuiltFrom called read keyword := by
  simp [PartBuiltFrom]

@[simp] theorem partBuiltFrom_textPart (text : Option String) :
    PartBuiltFrom called read keyword (textPart text) := by
  intro value hvalue
  obtain ⟨_, _, rfl⟩ := Option.map_eq_some_iff.mp hvalue
  exact .str _

@[simp] theorem partBuiltFrom_flagPart (enabled : Bool) :
    PartBuiltFrom called read keyword (flagPart enabled) := by
  intro value hvalue
  cases enabled with
  | false => exact nomatch hvalue
  | true => exact Option.some.inj hvalue ▸ .bool true

theorem partBuiltFrom_listPart {items : List Expr}
    (hitems : ∀ item ∈ items, item.BuiltFrom called read keyword) :
    PartBuiltFrom called read keyword (listPart items) := by
  intro value hvalue
  cases items with
  | nil => exact nomatch hvalue
  | cons item items => exact Option.some.inj hvalue ▸ .list hitems

/-- A call is built from the name of the function and what its parts are built from. -/
theorem BuiltFrom.ofParts {name : String} {parts : List (String × Option Expr)}
    (hname : called name) (hkeywords : ∀ part ∈ parts, keyword part.1)
    (hvalues : ∀ part ∈ parts, PartBuiltFrom called read keyword part.2) :
    (Expr.ofParts name parts).BuiltFrom called read keyword := by
  refine .call hname (fun argument hargument => ?_) fun argument hargument => ?_
  · exact hkeywords _ (mem_presentParts.mp hargument)
  · exact hvalues _ (mem_presentParts.mp hargument) _ rfl

end Starlark.Expr

/-! ## Constructors -/

namespace Rule

/-- The names that a rule file loads, as its body may read them. -/
def loaded : List String :=
  constructors ++ ActionName.standard.map fun action => "ACTION_NAMES." ++ identifierStem action

/-- The keywords of the arguments that constructors take. -/
def keywords : List String :=
  ["name", "value", "path", "category_name", "prefix", "extension", "features", "not_features",
    "key", "actions", "env_entries", "with_features", "flags", "flag_groups", "iterate_over",
    "expand_if_available", "expand_if_not_available", "expand_if_true", "expand_if_false",
    "expand_if_equal", "enabled", "flag_sets", "env_sets", "requires", "implies", "provides",
    "execution_requirements", "action_name", "tools"]

end Rule

open Rule Expr

/-- The name of a constant of a standard action. -/
def ActionName.IsConstant (name : String) : Prop :=
  ∃ action ∈ ActionName.standard, name = "ACTION_NAMES." ++ identifierStem action

/-- An expression of a toolchain: it uses what a rule file loads. -/
abbrev Starlark.Expr.Loaded (expr : Expr) : Prop :=
  expr.BuiltFrom (· ∈ constructors) ActionName.IsConstant (· ∈ keywords)

/-- A part of a call that uses what a rule file loads. -/
abbrev PartLoaded (part : Option Expr) : Prop :=
  PartBuiltFrom (· ∈ constructors) ActionName.IsConstant (· ∈ keywords) part

theorem Starlark.Expr.Loaded.usesOnly {expr : Expr} (hexpr : expr.Loaded) :
    expr.UsesOnly (· ∈ loaded) (· ∈ keywords) := by
  refine hexpr.mono (fun name hname => List.mem_append_left _ hname) ?_ fun _ => id
  rintro _ ⟨action, haction, rfl⟩
  exact List.mem_append_right _ (List.mem_map_of_mem haction)

theorem Starlark.Expr.Loaded.ofParts {name : String} {parts : List (String × Option Expr)}
    (hname : name ∈ constructors) (hkeywords : ∀ part ∈ parts, part.1 ∈ keywords)
    (hvalues : ∀ part ∈ parts, PartLoaded part.2) :
    (Expr.ofParts name parts).Loaded :=
  BuiltFrom.ofParts hname hkeywords hvalues

@[simp] theorem loaded_strExprs (values : List String) :
    PartLoaded (listPart (strExprs values)) :=
  partBuiltFrom_listPart (List.forall_mem_map.mpr fun value _ => .str value)

@[simp] theorem ActionName.loaded_toExpr (action : String) : (ActionName.toExpr action).Loaded := by
  unfold ActionName.toExpr
  cases hconstant : ActionName.constant? action with
  | none => exact .str action
  | some constant =>
      obtain ⟨hmem, rfl⟩ := ActionName.constant?_eq_some_iff.mp hconstant
      exact .ident ⟨action, hmem, rfl⟩

@[simp] theorem loaded_actionExprs (actions : List String) :
    PartLoaded (listPart (actionExprs actions)) :=
  partBuiltFrom_listPart (List.forall_mem_map.mpr fun action _ => ActionName.loaded_toExpr action)

/-- A list of converted values is loaded if each value is. -/
theorem loaded_listPart_map {α : Type} {toExpr : α → Expr}
    (hloaded : ∀ value, (toExpr value).Loaded) (values : List α) :
    PartLoaded (listPart (values.map toExpr)) :=
  partBuiltFrom_listPart (List.forall_mem_map.mpr fun value _ => hloaded value)

theorem MakeVariable.loaded_toExpr (exported : MakeVariable) : exported.toExpr.Loaded := by
  rw [exported.toExpr_eq]
  exact .ofParts (by decide) (by simp [keywords]) (by simp)

theorem ToolPath.loaded_toExpr (tool : ToolPath) : tool.toExpr.Loaded := by
  rw [tool.toExpr_eq]
  exact .ofParts (by decide) (by simp [keywords]) (by simp)

theorem ArtifactNamePattern.loaded_toExpr (pattern : ArtifactNamePattern) :
    pattern.toExpr.Loaded := by
  rw [pattern.toExpr_eq]
  exact .ofParts (by decide) (by simp [keywords]) (by simp)

theorem VariableWithValue.loaded_toExpr (comparison : VariableWithValue) :
    comparison.toExpr.Loaded := by
  rw [comparison.toExpr_eq]
  exact .ofParts (by decide) (by simp [keywords]) (by simp)

theorem WithFeatureSet.loaded_toExpr (constraint : WithFeatureSet) : constraint.toExpr.Loaded := by
  rw [constraint.toExpr_eq]
  exact .ofParts (by decide) (by simp [keywords]) (by simp)

theorem FeatureSet.loaded_toExpr (set : FeatureSet) : set.toExpr.Loaded := by
  rw [set.toExpr_eq]
  exact .ofParts (by decide) (by simp [keywords]) (by simp)

theorem EnvEntry.loaded_toExpr (entry : EnvEntry) : entry.toExpr.Loaded := by
  rw [entry.toExpr_eq]
  exact .ofParts (by decide) (by simp [keywords]) (by simp)

theorem EnvSet.loaded_toExpr (set : EnvSet) : set.toExpr.Loaded := by
  rw [set.toExpr_eq]
  refine .ofParts (by decide) (by simp [keywords]) ?_
  have hentries := loaded_listPart_map EnvEntry.loaded_toExpr set.entries
  have hfeatures := loaded_listPart_map WithFeatureSet.loaded_toExpr set.withFeatures
  simpa using ⟨hentries, hfeatures⟩

mutual

theorem FlagGroup.loaded_toExpr : (group : FlagGroup) → group.toExpr.Loaded
  | ⟨flags, groups, iterateOver, ifAll, ifNone, ifTrue, ifFalse, ifEqual⟩ => by
      rw [FlagGroup.toExpr_eq]
      refine .ofParts (by decide) (by simp [keywords]) ?_
      have hgroups := partBuiltFrom_listPart
        (List.forall_mem_map.mpr (FlagGroup.loaded_toExprs groups))
      have hequal : PartLoaded (ifEqual.map VariableWithValue.toExpr) := by
        intro value hvalue
        obtain ⟨comparison, _, rfl⟩ := Option.map_eq_some_iff.mp hvalue
        exact comparison.loaded_toExpr
      simpa using ⟨hgroups, hequal⟩

theorem FlagGroup.loaded_toExprs : (groups : List FlagGroup) →
    ∀ group ∈ groups, group.toExpr.Loaded
  | [] => List.forall_mem_nil _
  | group :: groups =>
      List.forall_mem_cons.mpr ⟨FlagGroup.loaded_toExpr group, FlagGroup.loaded_toExprs groups⟩

end

theorem FlagSet.loaded_toExpr (set : FlagSet) : set.toExpr.Loaded := by
  rw [set.toExpr_eq]
  refine .ofParts (by decide) (by simp [keywords]) ?_
  have hfeatures := loaded_listPart_map WithFeatureSet.loaded_toExpr set.withFeatures
  have hgroups := loaded_listPart_map FlagGroup.loaded_toExpr set.groups
  simpa using ⟨hfeatures, hgroups⟩

theorem Feature.loaded_toExpr (feature : Feature) : feature.toExpr.Loaded := by
  rw [feature.toExpr_eq]
  refine .ofParts (by decide) (by simp [keywords]) ?_
  have hflagSets := loaded_listPart_map FlagSet.loaded_toExpr feature.flagSets
  have henvSets := loaded_listPart_map EnvSet.loaded_toExpr feature.envSets
  have hrequires := loaded_listPart_map FeatureSet.loaded_toExpr feature.requires
  simpa using ⟨hflagSets, henvSets, hrequires⟩

theorem Tool.loaded_toExpr (tool : Tool) : tool.toExpr.Loaded := by
  rw [tool.toExpr_eq]
  refine .ofParts (by decide) (by simp [keywords]) ?_
  have hfeatures := loaded_listPart_map WithFeatureSet.loaded_toExpr tool.withFeatures
  simpa using hfeatures

theorem ActionConfig.loaded_toExpr (config : ActionConfig) : config.toExpr.Loaded := by
  rw [config.toExpr_eq]
  refine .ofParts (by decide) (by simp [keywords]) ?_
  have hflagSets := loaded_listPart_map FlagSet.loaded_toExpr config.flagSets
  have htools := loaded_listPart_map Tool.loaded_toExpr config.tools
  simpa using ⟨hflagSets, htools⟩

end ToolchainMerge
