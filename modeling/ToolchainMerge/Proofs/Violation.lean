import ToolchainMerge.Proofs.Validation

/-!
# Which violation is reported

A list of toolchains can be wrong in many places at once, and only one of them is reported.  Which
one it is can be said without following the searches.

* An empty list is refused as such.  In any other, a key that occurs twice comes first, wherever it
  stands.
* Otherwise the first toolchain that is not well-formed decides.  In it a repeated feature comes
  before a repeated action config, and both come before flag groups.
* Flag groups are visited feature by feature and then config by config.  `FlagSet.visited` lists the
  groups of one owner in this order, each before the groups nested in it.  The first group that has
  too many variables for a condition is reported by the kind and the name of its owner.

`FirstViolation` says this, and `validate_exact` is the main statement.
-/

namespace ToolchainMerge

/-! ## The first repetition -/

/-- The first element of a list that occurred before. -/
def FirstRepeat {α : Type} (elements : List α) (element : α) : Prop :=
  ∃ before after, elements = before ++ element :: after ∧ before.Nodup ∧ element ∈ before

/-- The search with some elements seen beforehand: what is new is put in front of them, and the
search stops at the first element that is not new. -/
theorem firstRepeat?_eq_some_iff {α : Type} [DecidableEq α] {seen elements : List α}
    {element : α} (hseen : seen.Nodup) :
    firstRepeat? seen elements = some element ↔
      ∃ before after, elements = before ++ element :: after ∧
        (before.reverse ++ seen).Nodup ∧ element ∈ before.reverse ++ seen := by
  induction elements generalizing seen with
  | nil => simp [firstRepeat?]
  | cons first rest ih =>
      unfold firstRepeat?
      have hgrow : ∀ before, (first :: before).reverse ++ seen =
          before.reverse ++ first :: seen := by simp
      by_cases hmem : first ∈ seen
      · rw [if_pos hmem, Option.some.injEq]
        constructor
        · rintro rfl
          exact ⟨[], rest, rfl, hseen, hmem⟩
        · rintro ⟨before, after, hsplit, hnodup, -⟩
          cases before with
          | nil => exact (List.cons.inj hsplit).1
          | cons head before =>
              obtain ⟨rfl, -⟩ := List.cons.inj hsplit
              rw [hgrow] at hnodup
              exact absurd hmem (List.nodup_cons.mp hnodup.of_append_right).1
      · rw [if_neg hmem, ih (List.nodup_cons.mpr ⟨hmem, hseen⟩)]
        constructor
        · rintro ⟨before, after, rfl, hnodup, hrepeat⟩
          rw [← hgrow] at hnodup hrepeat
          exact ⟨first :: before, after, rfl, hnodup, hrepeat⟩
        · rintro ⟨before, after, hsplit, hnodup, hrepeat⟩
          cases before with
          | nil =>
              obtain ⟨rfl, -⟩ := List.cons.inj hsplit
              exact absurd hrepeat hmem
          | cons head before =>
              obtain ⟨rfl, rfl⟩ := List.cons.inj hsplit
              rw [hgrow] at hnodup hrepeat
              exact ⟨before, after, rfl, hnodup, hrepeat⟩

theorem firstRepeat?_nil_eq_some_iff {α : Type} [DecidableEq α] {elements : List α}
    {element : α} : firstRepeat? [] elements = some element ↔ FirstRepeat elements element := by
  rw [firstRepeat?_eq_some_iff List.nodup_nil]
  simp [FirstRepeat]

/-! ## Flag groups in the order of the visit -/

namespace FlagGroup

/-- A group has more than one variable for a condition.  Where both have, it is the condition on
all variables that counts. -/
inductive Repeats (group : FlagGroup) : Directive → Prop
  | allAvailable (hall : 1 < group.ifAllAvailable.length) : Repeats group .allAvailable
  | noneAvailable (hall : group.ifAllAvailable.length ≤ 1)
      (hnone : 1 < group.ifNoneAvailable.length) : Repeats group .noneAvailable

theorem ownRepeat?_eq_some_iff {group : FlagGroup} {directive : Directive} :
    ownRepeat? group = some directive ↔ group.Repeats directive := by
  unfold ownRepeat?
  constructor
  · intro hown
    split_ifs at hown with hall hnone
    · obtain rfl := Option.some.inj hown
      exact .allAvailable hall
    · obtain rfl := Option.some.inj hown
      exact .noneAvailable (Nat.le_of_not_lt hall) hnone
  · intro hrepeats
    cases hrepeats with
    | allAvailable hall => rw [if_pos hall]
    | noneAvailable hall hnone => rw [if_neg (Nat.not_lt.mpr hall), if_pos hnone]

mutual

/-- A group and the groups nested in it, each before those inside it. -/
def withNested : FlagGroup → List FlagGroup
  | group@⟨_, groups, _, _, _, _, _, _⟩ => group :: allWithNested groups

/-- Some groups and the groups nested in them. -/
def allWithNested : List FlagGroup → List FlagGroup
  | [] => []
  | group :: groups => withNested group ++ allWithNested groups

end

mutual

/-- The search through the nested groups is one through the list of them. -/
theorem repeat?_eq_findSome? : (group : FlagGroup) →
    repeat? group = (withNested group).findSome? ownRepeat?
  | ⟨_, groups, _, _, _, _, _, _⟩ => by
      rw [repeat?, withNested, List.findSome?_cons, repeatAmong?_eq_findSome? groups]
      cases ownRepeat? _ <;> rfl

theorem repeatAmong?_eq_findSome? : (groups : List FlagGroup) →
    repeatAmong? groups = (allWithNested groups).findSome? ownRepeat?
  | [] => rfl
  | group :: groups => by
      rw [repeatAmong?, allWithNested, List.findSome?_append, repeat?_eq_findSome? group,
        repeatAmong?_eq_findSome? groups]

end

end FlagGroup

namespace FlagSet

/-- The flag groups of some flag sets in the order in which they are visited. -/
def visited (flagSets : List FlagSet) : List FlagGroup :=
  flagSets.flatMap fun flagSet => FlagGroup.allWithNested flagSet.groups

/-- The condition that the first group of the visit with too many variables repeats. -/
def FirstRepeated (flagSets : List FlagSet) (directive : Directive) : Prop :=
  ∃ before group after, visited flagSets = before ++ group :: after ∧
    group.Repeats directive ∧
    ∀ earlier ∈ before, earlier.ifAllAvailable.length ≤ 1 ∧ earlier.ifNoneAvailable.length ≤ 1

theorem repeatAmong?_eq_findSome? (flagSets : List FlagSet) :
    repeatAmong? flagSets = (visited flagSets).findSome? FlagGroup.ownRepeat? := by
  induction flagSets with
  | nil => rfl
  | cons flagSet flagSets ih =>
      rw [visited, List.flatMap_cons, List.findSome?_append,
        ← FlagGroup.repeatAmong?_eq_findSome?, ← visited, ← ih, repeatAmong?, List.findSome?_cons]
      cases FlagGroup.repeatAmong? flagSet.groups <;> rfl

theorem repeatAmong?_eq_some_iff {flagSets : List FlagSet} {directive : Directive} :
    repeatAmong? flagSets = some directive ↔ FirstRepeated flagSets directive := by
  rw [repeatAmong?_eq_findSome?, List.findSome?_eq_some_iff]
  simp only [FlagGroup.ownRepeat?_eq_some_iff, FlagGroup.ownRepeat?_eq_none_iff]
  rfl

end FlagSet

/-- The first of some items that has a group with too many variables, and the condition which that
group repeats. -/
def FirstOffender {α : Type} (flagSets : α → List FlagSet) (items : List α) (item : α)
    (directive : Directive) : Prop :=
  ∃ before after, items = before ++ item :: after ∧
    (∀ earlier ∈ before, FlagSet.AllPlain (flagSets earlier)) ∧
    FlagSet.FirstRepeated (flagSets item) directive

section

variable {α : Type} {flagSets : α → List FlagSet} {items : List α}
  {report : α → Directive → MergeError}

theorem findSome?_repeatAmong?_eq_none_iff :
    (items.findSome? fun item => (FlagSet.repeatAmong? (flagSets item)).map (report item)) = none ↔
      ∀ item ∈ items, FlagSet.AllPlain (flagSets item) := by
  simp only [List.findSome?_eq_none_iff, Option.map_eq_none_iff, FlagSet.repeatAmong?_eq_none_iff]

theorem findSome?_repeatAmong?_eq_some_iff {error : MergeError} :
    (items.findSome? fun item => (FlagSet.repeatAmong? (flagSets item)).map (report item)) =
        some error ↔
      ∃ item directive, FirstOffender flagSets items item directive ∧
        report item directive = error := by
  simp only [List.findSome?_eq_some_iff, Option.map_eq_some_iff, Option.map_eq_none_iff,
    FlagSet.repeatAmong?_eq_some_iff, FlagSet.repeatAmong?_eq_none_iff]
  constructor
  · rintro ⟨before, item, after, hsplit, ⟨directive, hfirst, herror⟩, hbefore⟩
    exact ⟨item, directive, ⟨before, after, hsplit, hbefore, hfirst⟩, herror⟩
  · rintro ⟨item, directive, ⟨before, after, hsplit, hbefore, hfirst⟩, herror⟩
    exact ⟨before, item, after, hsplit, ⟨directive, hfirst, herror⟩, hbefore⟩

end

/-! ## Toolchains -/

namespace Toolchain

/-- The first violation inside one toolchain. -/
inductive FirstViolation (toolchain : Toolchain) : MergeError → Prop
  | feature {name : String} (hrepeat : FirstRepeat (toolchain.features.map (·.name)) name) :
      FirstViolation toolchain (.repeatedItem .feature name toolchain.identifier)
  | actionConfig {name : String} (hfeatures : (toolchain.features.map (·.name)).Nodup)
      (hrepeat : FirstRepeat (toolchain.actionConfigs.map (·.actionName)) name) :
      FirstViolation toolchain (.repeatedItem .actionConfig name toolchain.identifier)
  | inFeature {feature : Feature} {directive : Directive}
      (hfeatures : (toolchain.features.map (·.name)).Nodup)
      (hconfigs : (toolchain.actionConfigs.map (·.actionName)).Nodup)
      (hfirst : FirstOffender Feature.flagSets toolchain.features feature directive) :
      FirstViolation toolchain (.repeatedDirective .feature feature.name directive)
  | inActionConfig {config : ActionConfig} {directive : Directive}
      (hfeatures : (toolchain.features.map (·.name)).Nodup)
      (hconfigs : (toolchain.actionConfigs.map (·.actionName)).Nodup)
      (hplain : ∀ feature ∈ toolchain.features, FlagSet.AllPlain feature.flagSets)
      (hfirst : FirstOffender ActionConfig.flagSets toolchain.actionConfigs config directive) :
      FirstViolation toolchain (.repeatedDirective .actionConfig config.actionName directive)

theorem repeatedItem?_eq_none_iff {toolchain : Toolchain} {kind : ItemKind}
    {names : List String} : toolchain.repeatedItem? kind names = none ↔ names.Nodup := by
  rw [repeatedItem?, Option.map_eq_none_iff, firstRepeat?_nil_eq_none_iff]

theorem repeatedItem?_eq_some_iff {toolchain : Toolchain} {kind : ItemKind}
    {names : List String} {error : MergeError} :
    toolchain.repeatedItem? kind names = some error ↔
      ∃ name, FirstRepeat names name ∧
        .repeatedItem kind name toolchain.identifier = error := by
  simp only [repeatedItem?, Option.map_eq_some_iff, firstRepeat?_nil_eq_some_iff]

theorem violation?_eq_some_iff {toolchain : Toolchain} {error : MergeError} :
    toolchain.violation? = some error ↔ toolchain.FirstViolation error := by
  unfold violation?
  rw [Option.or_eq_some_iff, Option.or_eq_some_iff, Option.or_eq_some_iff,
    repeatedItem?_eq_some_iff, repeatedItem?_eq_some_iff, repeatedItem?_eq_none_iff,
    repeatedItem?_eq_none_iff, findSome?_repeatAmong?_eq_some_iff,
    findSome?_repeatAmong?_eq_some_iff, findSome?_repeatAmong?_eq_none_iff]
  constructor
  · rintro (⟨name, hrepeat, rfl⟩ | ⟨hfeatures, ⟨name, hrepeat, rfl⟩ | ⟨hconfigs, hgroups⟩⟩)
    · exact .feature hrepeat
    · exact .actionConfig hfeatures hrepeat
    · rcases hgroups with ⟨feature, directive, hfirst, rfl⟩ |
        ⟨hplain, config, directive, hfirst, rfl⟩
      · exact .inFeature hfeatures hconfigs hfirst
      · exact .inActionConfig hfeatures hconfigs hplain hfirst
  · intro hviolation
    cases hviolation with
    | feature hrepeat => exact Or.inl ⟨_, hrepeat, rfl⟩
    | actionConfig hfeatures hrepeat => exact Or.inr ⟨hfeatures, Or.inl ⟨_, hrepeat, rfl⟩⟩
    | inFeature hfeatures hconfigs hfirst =>
        exact Or.inr ⟨hfeatures, Or.inr ⟨hconfigs, Or.inl ⟨_, _, hfirst, rfl⟩⟩⟩
    | inActionConfig hfeatures hconfigs hplain hfirst =>
        exact Or.inr ⟨hfeatures, Or.inr ⟨hconfigs, Or.inr ⟨hplain, _, _, hfirst, rfl⟩⟩⟩

end Toolchain

/-- The first violation in a list of toolchains.  A key that occurs twice is a violation of the
list, which comes before those inside toolchains. -/
inductive FirstViolation (toolchains : List Toolchain) : MergeError → Prop
  | noToolchains (hempty : toolchains = []) : FirstViolation toolchains .noToolchains
  | repeatedKey {key : Key} (hrepeat : FirstRepeat (toolchains.map Toolchain.key) key) :
      FirstViolation toolchains (.repeatedKey key)
  | inside {before after : List Toolchain} {toolchain : Toolchain} {error : MergeError}
      (hkeys : (toolchains.map Toolchain.key).Nodup)
      (hsplit : toolchains = before ++ toolchain :: after)
      (hbefore : ∀ earlier ∈ before, earlier.WellFormed)
      (hfirst : toolchain.FirstViolation error) : FirstViolation toolchains error

theorem violationAmong?_eq_some_iff {toolchains : List Toolchain} {error : MergeError} :
    Toolchain.violationAmong? toolchains = some error ↔ FirstViolation toolchains error := by
  cases toolchains with
  | nil =>
      rw [Toolchain.violationAmong?, Option.some.injEq]
      constructor
      · rintro rfl
        exact .noToolchains rfl
      · intro hviolation
        cases hviolation with
        | noToolchains _ => rfl
        | repeatedKey hrepeat =>
            obtain ⟨before, after, hsplit, -, -⟩ := hrepeat
            exact absurd hsplit.symm (by simp)
        | inside _ hsplit _ _ => exact absurd hsplit.symm (by simp)
  | cons first rest =>
      rw [Toolchain.violationAmong?, Option.or_eq_some_iff, Option.map_eq_some_iff,
        Option.map_eq_none_iff, firstRepeat?_nil_eq_none_iff, List.findSome?_eq_some_iff]
      · simp only [firstRepeat?_nil_eq_some_iff, Toolchain.violation?_eq_some_iff,
          Toolchain.violation?_eq_none_iff]
        constructor
        · rintro (⟨key, hrepeat, rfl⟩ | ⟨hkeys, before, toolchain, after, hsplit, hfirst, hbefore⟩)
          · exact .repeatedKey hrepeat
          · exact .inside hkeys hsplit hbefore hfirst
        · intro hviolation
          cases hviolation with
          | noToolchains hempty => exact absurd hempty (List.cons_ne_nil first rest)
          | repeatedKey hrepeat => exact Or.inl ⟨_, hrepeat, rfl⟩
          | inside hkeys hsplit hbefore hfirst =>
              exact Or.inr ⟨hkeys, _, _, _, hsplit, hfirst, hbefore⟩
      · exact List.cons_ne_nil first rest

/-- **Validation is exact, and says what comes first.**  A list of toolchains is accepted exactly
when it is not empty, its keys differ and its toolchains are well-formed.  It is refused with an
error exactly when that is the first violation in it. -/
theorem validate_exact (toolchains : List Toolchain) :
    (validate toolchains = .ok () ↔
      toolchains ≠ [] ∧ (toolchains.map Toolchain.key).Nodup ∧
        ∀ toolchain ∈ toolchains, toolchain.WellFormed) ∧
    ∀ error, validate toolchains = .error error ↔ FirstViolation toolchains error := by
  refine ⟨validate_eq_ok_iff, fun error => ?_⟩
  rw [← violationAmong?_eq_some_iff]
  unfold validate
  cases Toolchain.violationAmong? toolchains with
  | none => simp
  | some first => simp

/-- The nested group is reported, not the group behind it and not the config. -/
example :
    let group (ifAllAvailable ifNoneAvailable : List String) (groups : List FlagGroup) :=
      { (default : FlagGroup) with groups, ifAllAvailable, ifNoneAvailable }
    let flagSet (groups : List FlagGroup) := { (default : FlagSet) with groups }
    validate [{ (default : Toolchain) with
      features := [{ (default : Feature) with
        name := "shared", flagSets := [flagSet
          [group ["input"] [] [group [] ["output", "library"] []], group ["x", "y"] [] []]] }]
      actionConfigs := [{ (default : ActionConfig) with
        actionName := "link", flagSets := [flagSet [group ["x", "y"] [] []]] }] }] =
      .error (.repeatedDirective .feature "shared" .noneAvailable) := by
  decide

end ToolchainMerge
