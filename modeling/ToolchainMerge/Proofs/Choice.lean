import Mathlib.Data.List.Forall2
import ToolchainMerge.Assignment
import ToolchainMerge.Proofs.Condition
import ToolchainMerge.Proofs.Lists

/-!
# Chains of branches

A chain is built from classes of keys, and every branch finds its condition alone, by
comparing counts.  This file proves that the conditions fit together nevertheless.  When
the keys of the classes make up the scope, each key once, then at *every* pair of attribute
values, whether or not it is a key of the scope,

* at most one branch holds (`not_holds_both`, hence `pairwise_selecting`);
* at a key of the scope it is the branch of the class of that key;
* elsewhere it is the branch of the class that has the whole cpu, if there is one.

So a chain could as well be written in another order.  `Separates` puts these facts together
and `separates_ofClasses` is the main statement.
-/

namespace ToolchainMerge

open Starlark

variable {scope : List Key} {classes : List (ValueClass Expr)}

namespace Choice

/-! ## One class and several -/

theorem ofClasses_of_length_ne_one (hlength : classes.length ≠ 1) (scope : List Key)
    (coverage : Coverage) :
    ofClasses classes scope coverage =
      .byKey (classes.map fun group => ⟨.selecting group.keys scope, group.value⟩) coverage := by
  unfold ofClasses
  split
  · exact absurd rfl hlength
  · rfl

end Choice

/-! ## Disjoint classes -/

/-- **No two branches hold at once**, at any pair of attribute values: a pair that is no key
of the scope satisfies a condition only together with all keys of its cpu. -/
theorem not_holds_both (hscope : scope.Nodup) {keys others : List Key} (hkeys : keys.Nodup)
    (hothers : others.Nodup) (hsub : keys ⊆ scope) (hsub' : others ⊆ scope)
    (hdisjoint : keys.Disjoint others) (key : Key) :
    ¬ ((Condition.selecting keys scope).Holds key ∧
        (Condition.selecting others scope).Holds key) := by
  rw [Condition.holds_selecting_iff hscope hkeys hsub,
    Condition.holds_selecting_iff hscope hothers hsub']
  rintro ⟨hkey | ⟨⟨other, hother, hcpu⟩, hall⟩, hkey' | ⟨_, hall'⟩⟩
  · exact hdisjoint hkey hkey'
  · exact hdisjoint hkey (hall' key (hsub hkey) rfl)
  · exact hdisjoint (hall key (hsub' hkey') rfl) hkey'
  · exact hdisjoint (hall other hother hcpu) (hall' other hother hcpu)

/-- What it means that classes divide up a scope: together they hold each of its keys once. -/
def Divides (classes : List (ValueClass Expr)) (scope : List Key) : Prop :=
  scope.Nodup ∧ (classes.flatMap (·.keys)).Perm scope

namespace Divides

theorem nodup_flatMap (hdivides : Divides classes scope) :
    (classes.flatMap (·.keys)).Nodup :=
  hdivides.2.nodup_iff.mpr hdivides.1

theorem nodup_keys (hdivides : Divides classes scope) {group : ValueClass Expr}
    (hgroup : group ∈ classes) : group.keys.Nodup :=
  (List.nodup_flatMap.mp hdivides.nodup_flatMap).1 group hgroup

theorem keys_subset (hdivides : Divides classes scope) {group : ValueClass Expr}
    (hgroup : group ∈ classes) : group.keys ⊆ scope := fun _ hkey =>
  hdivides.2.subset (List.mem_flatMap.mpr ⟨group, hgroup, hkey⟩)

theorem exists_class (hdivides : Divides classes scope) {key : Key} (hkey : key ∈ scope) :
    ∃ group ∈ classes, key ∈ group.keys :=
  List.mem_flatMap.mp (hdivides.2.symm.subset hkey)

end Divides

/-- In a chain over divided classes at most one branch holds. -/
theorem pairwise_selecting (hdivides : Divides classes scope) (key : Key) :
    (classes.map fun group => (⟨.selecting group.keys scope, group.value⟩ : Branch)).Pairwise
      fun first second => ¬ (first.condition.Holds key ∧ second.condition.Holds key) := by
  have hdisjoint := (List.nodup_flatMap.mp hdivides.nodup_flatMap).2
  rw [List.pairwise_map]
  refine hdisjoint.imp_of_mem fun {first second} hfirst hsecond hpair => ?_
  exact not_holds_both hdivides.1 (hdivides.nodup_keys hfirst) (hdivides.nodup_keys hsecond)
    (hdivides.keys_subset hfirst) (hdivides.keys_subset hsecond) hpair key

/-! ## The whole chain -/

/-- What the branches of a chain over `classes` do at all pairs of attribute values. -/
structure Separates (scope : List Key) (classes : List (ValueClass Expr))
    (branches : List Branch) : Prop where
  /-- Each class has a branch with its value.  At a key of the scope the branch holds if the
  class has that key, at any other pair if the class has all keys of a cpu of the scope. -/
  each_class : List.Forall₂ (fun (group : ValueClass Expr) (branch : Branch) =>
    branch.value = group.value ∧
      (∀ key ∈ scope, branch.condition.Holds key ↔ key ∈ group.keys) ∧
      ∀ key, key ∉ scope → (∃ other ∈ scope, other.cpu = key.cpu) →
        (branch.condition.Holds key ↔
          ∀ other ∈ scope, other.cpu = key.cpu → other ∈ group.keys)) classes branches
  /-- At most one branch holds, wherever that is. -/
  exclusive : ∀ key, branches.Pairwise fun first second =>
    ¬ (first.condition.Holds key ∧ second.condition.Holds key)
  exhaustive : ∀ key ∈ scope, ∃ branch ∈ branches, branch.condition.Holds key
  /-- At a cpu that no key of the scope has, no branch holds. -/
  unknown_cpu : ∀ key, (∀ other ∈ scope, other.cpu ≠ key.cpu) →
    ∀ branch ∈ branches, ¬ branch.condition.Holds key
  /-- The same branches in another order choose the same values. -/
  reordered : ∀ others, others.Perm branches → ∀ coverage key,
    (Choice.byKey others coverage).at? key = (Choice.byKey branches coverage).at? key

/-- **Chains separate their classes.**  Two or more classes that divide up a scope become a
chain of branches that exclude each other everywhere, cover the scope, and may be reordered. -/
theorem separates_ofClasses (hscope : scope.Nodup) (htwo : 2 ≤ classes.length)
    (hkeys : (classes.flatMap (·.keys)).Perm scope) (coverage : Coverage) :
    ∃ branches, Choice.ofClasses classes scope coverage = .byKey branches coverage ∧
      Separates scope classes branches := by
  have hdivides : Divides classes scope := ⟨hscope, hkeys⟩
  refine ⟨_, Choice.ofClasses_of_length_ne_one (by omega) scope coverage, ?_⟩
  have hholds : ∀ group ∈ classes, ∀ key, (Condition.selecting group.keys scope).Holds key ↔
      key ∈ group.keys ∨ ((∃ other ∈ scope, other.cpu = key.cpu) ∧
        ∀ other ∈ scope, other.cpu = key.cpu → other ∈ group.keys) := fun group hgroup key =>
    Condition.holds_selecting_iff hscope (hdivides.nodup_keys hgroup) (hdivides.keys_subset hgroup)
  refine ⟨?_, pairwise_selecting hdivides, ?_, ?_, ?_⟩
  · -- each class
    rw [List.forall₂_map_right_iff, List.forall₂_same]
    intro group hgroup
    refine ⟨rfl, fun key hkey => ?_, fun key hkey hcpu => ?_⟩
    · exact Condition.holds_selecting_iff_mem hscope (hdivides.nodup_keys hgroup)
        (hdivides.keys_subset hgroup) hkey
    · have hoff : key ∉ group.keys := fun hmem => hkey (hdivides.keys_subset hgroup hmem)
      rw [hholds group hgroup key]
      exact ⟨fun h => (h.resolve_left hoff).2, fun hall => Or.inr ⟨hcpu, hall⟩⟩
  · -- exhaustive
    intro key hkey
    obtain ⟨group, hgroup, hmem⟩ := hdivides.exists_class hkey
    exact ⟨_, List.mem_map_of_mem hgroup, (hholds group hgroup key).mpr (Or.inl hmem)⟩
  · -- a cpu without keys
    intro key hcpu branch hbranch
    obtain ⟨group, hgroup, rfl⟩ := List.mem_map.mp hbranch
    intro hbranchHolds
    rcases (hholds group hgroup key).mp hbranchHolds with hmem | ⟨⟨other, hother, heq⟩, _⟩
    · exact hcpu key (hdivides.keys_subset hgroup hmem) rfl
    · exact hcpu other hother heq
  · -- another order
    intro others hperm coverage key
    refine congrArg (Option.map _) (find?_eq_of_perm ?_ hperm)
    simpa using pairwise_selecting hdivides key

/-- Two compilers share a cpu and a third key has one of its own; the classes split the pair. -/
theorem separates_ofClasses_sharedCpu :
    let scope : List Key := [⟨"k8", "gcc"⟩, ⟨"k8", "clang"⟩, ⟨"arm", "gcc"⟩]
    let classes : List (ValueClass Expr) :=
      [⟨.str "a", [⟨"k8", "gcc"⟩, ⟨"arm", "gcc"⟩]⟩, ⟨.str "b", [⟨"k8", "clang"⟩]⟩]
    scope.Nodup ∧ 2 ≤ classes.length ∧ (classes.flatMap (·.keys)).Perm scope ∧
      ∃ branches, Choice.ofClasses classes scope .everyKey = .byKey branches .everyKey ∧
        Separates scope classes branches :=
  ⟨by decide, by decide, by decide,
    separates_ofClasses (by decide) (by decide) (by decide) .everyKey⟩

end ToolchainMerge
