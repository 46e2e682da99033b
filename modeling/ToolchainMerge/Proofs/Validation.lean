import Mathlib.Data.List.Nodup
import ToolchainMerge.Validation

/-!
# What validation accepts

Each search of `validate` comes back empty exactly when there is nothing to find, and
`validate_eq_ok_iff` puts the searches together: a list of toolchains is accepted when it is
not empty, its keys differ, and every toolchain in it is `WellFormed`.
-/

namespace ToolchainMerge

theorem firstRepeat?_eq_none_iff {α : Type} [DecidableEq α] {seen elements : List α} :
    firstRepeat? seen elements = none ↔
      elements.Nodup ∧ ∀ element ∈ elements, element ∉ seen := by
  induction elements generalizing seen with
  | nil => simp [firstRepeat?]
  | cons element rest ih =>
      rw [firstRepeat?]
      by_cases hseen : element ∈ seen
      · simp [hseen]
      · rw [if_neg hseen, ih, List.nodup_cons]
        constructor
        · rintro ⟨hnodup, hrest⟩
          refine ⟨⟨fun hmem => hrest element hmem (List.mem_cons_self ..), hnodup⟩, ?_⟩
          intro other hother
          rcases List.mem_cons.mp hother with rfl | hother
          · exact hseen
          · exact fun hmem => hrest other hother (List.mem_cons_of_mem _ hmem)
        · rintro ⟨⟨hfresh, hnodup⟩, hall⟩
          refine ⟨hnodup, fun other hother hmem => ?_⟩
          rcases List.mem_cons.mp hmem with rfl | hmem
          · exact hfresh hother
          · exact hall other (List.mem_cons_of_mem _ hother) hmem

theorem firstRepeat?_nil_eq_none_iff {α : Type} [DecidableEq α] {elements : List α} :
    firstRepeat? [] elements = none ↔ elements.Nodup := by
  rw [firstRepeat?_eq_none_iff]
  simp

/-! ## Flag groups -/

namespace FlagGroup

/-- A group in which, at every depth, the two conditions that take one variable have no more
than one. -/
inductive Plain : FlagGroup → Prop
  | intro {group : FlagGroup} (all_le : group.ifAllAvailable.length ≤ 1)
      (none_le : group.ifNoneAvailable.length ≤ 1)
      (nested : ∀ inner ∈ group.groups, Plain inner) : Plain group

theorem plain_iff {group : FlagGroup} :
    group.Plain ↔ group.ifAllAvailable.length ≤ 1 ∧ group.ifNoneAvailable.length ≤ 1 ∧
      ∀ inner ∈ group.groups, inner.Plain :=
  ⟨fun ⟨hall, hnone, hnested⟩ => ⟨hall, hnone, hnested⟩, fun h => ⟨h.1, h.2.1, h.2.2⟩⟩

theorem ownRepeat?_eq_none_iff {group : FlagGroup} :
    ownRepeat? group = none ↔
      group.ifAllAvailable.length ≤ 1 ∧ group.ifNoneAvailable.length ≤ 1 := by
  unfold ownRepeat?
  split
  · rename_i hall
    exact ⟨fun h => (nomatch h), fun h => absurd h.1 (by omega)⟩
  · split
    · rename_i hnone
      exact ⟨fun h => (nomatch h), fun h => absurd h.2 (by omega)⟩
    · exact ⟨fun _ => ⟨by omega, by omega⟩, fun _ => rfl⟩

mutual

theorem repeat?_eq_none_iff : (group : FlagGroup) → (repeat? group = none ↔ group.Plain)
  | ⟨_, groups, _, _, _, _, _, _⟩ => by
      rw [repeat?, Option.or_eq_none_iff, ownRepeat?_eq_none_iff, plain_iff,
        repeatAmong?_eq_none_iff groups, and_assoc]

theorem repeatAmong?_eq_none_iff :
    (groups : List FlagGroup) → (repeatAmong? groups = none ↔ ∀ group ∈ groups, group.Plain)
  | [] => by simp [repeatAmong?]
  | group :: groups => by
      rw [repeatAmong?, Option.or_eq_none_iff, repeat?_eq_none_iff group,
        repeatAmong?_eq_none_iff groups, List.forall_mem_cons]

end

end FlagGroup

/-- All flag groups of the flag sets are plain. -/
def FlagSet.AllPlain (flagSets : List FlagSet) : Prop :=
  ∀ flagSet ∈ flagSets, ∀ group ∈ flagSet.groups, group.Plain

theorem FlagSet.repeatAmong?_eq_none_iff {flagSets : List FlagSet} :
    FlagSet.repeatAmong? flagSets = none ↔ FlagSet.AllPlain flagSets := by
  simp [FlagSet.repeatAmong?, FlagSet.AllPlain, FlagGroup.repeatAmong?_eq_none_iff]

/-! ## Toolchains -/

namespace Toolchain

/-- What a toolchain has to satisfy by itself. -/
structure WellFormed (toolchain : Toolchain) : Prop where
  nodup_features : (toolchain.features.map (·.name)).Nodup
  nodup_actionConfigs : (toolchain.actionConfigs.map (·.actionName)).Nodup
  plain_features : ∀ feature ∈ toolchain.features, FlagSet.AllPlain feature.flagSets
  plain_actionConfigs : ∀ config ∈ toolchain.actionConfigs, FlagSet.AllPlain config.flagSets

theorem violation?_eq_none_iff {toolchain : Toolchain} :
    toolchain.violation? = none ↔ toolchain.WellFormed := by
  have hparts : toolchain.violation? = none ↔
      (toolchain.features.map (·.name)).Nodup ∧
        (toolchain.actionConfigs.map (·.actionName)).Nodup ∧
        (∀ feature ∈ toolchain.features, FlagSet.AllPlain feature.flagSets) ∧
        ∀ config ∈ toolchain.actionConfigs, FlagSet.AllPlain config.flagSets := by
    simp [violation?, repeatedItem?, firstRepeat?_nil_eq_none_iff,
      FlagSet.repeatAmong?_eq_none_iff]
  rw [hparts]
  exact ⟨fun h => ⟨h.1, h.2.1, h.2.2.1, h.2.2.2⟩, fun h => ⟨h.1, h.2, h.3, h.4⟩⟩

end Toolchain

/-- **Validation is exact.**  A list of toolchains is accepted exactly when it is not empty,
its keys differ and its toolchains are well-formed. -/
theorem validate_eq_ok_iff {toolchains : List Toolchain} :
    validate toolchains = .ok () ↔
      toolchains ≠ [] ∧ (toolchains.map Toolchain.key).Nodup ∧
        ∀ toolchain ∈ toolchains, toolchain.WellFormed := by
  have hok : validate toolchains = .ok () ↔ Toolchain.violationAmong? toolchains = none := by
    unfold validate
    cases Toolchain.violationAmong? toolchains <;> simp
  rw [hok]
  cases toolchains with
  | nil => simp [Toolchain.violationAmong?]
  | cons first rest =>
      rw [Toolchain.violationAmong?, Option.or_eq_none_iff, Option.map_eq_none_iff,
        firstRepeat?_nil_eq_none_iff, List.findSome?_eq_none_iff]
      · simp only [Toolchain.violation?_eq_none_iff, ne_eq, List.cons_ne_nil, not_false_eq_true,
          true_and]
      · exact List.cons_ne_nil _ _

end ToolchainMerge
