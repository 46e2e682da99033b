import ToolchainMerge.Proofs.Choice
import ToolchainMerge.Proofs.ValueClass

/-!
# Merging entries

Every statement of a rule comes about in one way: the toolchains that have a value for it
are listed with their keys, equal values are put into one class, the values are converted,
and the classes become a choice within the keys of the list.  `Choice.merging` is that way.

Two facts carry what is proved about rules.  At the key of an entry the choice is the value
of the entry (`at?_merging`), however the values agree or differ.  And where the conversion
tells the values of the list apart, it does not matter whether values are compared before or
after it (`merging_eq_of_injOn`), so that the branches are as few as the expressions.
-/

namespace ToolchainMerge

open Starlark

variable {α : Type} [DecidableEq α]

/-! ## Comparing before and after a conversion -/

namespace ValueClass

/-- Classes by value are classes by converted value if the conversion tells the values apart. -/
theorem ofEntries_map_of_injOn {β : Type} [DecidableEq β] {change : α → β}
    {entries : List (Key × α)}
    (hinj : ∀ first ∈ entries.map (·.2), ∀ second ∈ entries.map (·.2),
      change first = change second → first = second) :
    ofEntries (entries.map fun entry => (entry.1, change entry.2)) =
      (ofEntries entries).map (·.map change) := by
  have hvalues : (entries.map fun entry => (entry.1, change entry.2)).map (·.2) =
      (entries.map (·.2)).map change := by
    simp [Function.comp_def]
  rw [ofEntries_eq, hvalues, eraseDups_map_of_injOn hinj, ofEntries_eq, List.map_map,
    List.map_map]
  refine List.map_congr_left fun value hvalue => ?_
  rw [List.mem_eraseDups] at hvalue
  have hkeys : keysOf (entries.map fun entry => (entry.1, change entry.2)) (change value) =
      keysOf entries value := by
    rw [keysOf, keysOf, List.filter_map, List.map_map]
    refine congrArg _ (List.filter_congr fun entry hentry => ?_)
    have hiff : change entry.2 = change value ↔ entry.2 = value :=
      ⟨hinj entry.2 (List.mem_map_of_mem hentry) value hvalue, congrArg change⟩
    simpa using hiff
  simp [ValueClass.map, hkeys]

end ValueClass

namespace Choice

/-- The choice among the values of some entries, each value written by `toExpr`. -/
def merging (toExpr : α → Expr) (entries : List (Key × α)) (coverage : Coverage) : Choice :=
  .ofClasses ((ValueClass.ofEntries entries).map (·.map toExpr)) (entries.map (·.1)) coverage

/-- The expressions that a choice can yield, in the order of its branches. -/
def values : Choice → List Expr
  | .always value => [value]
  | .byKey branches _ => branches.map (·.value)

theorem merging_eq_of_injOn {toExpr : α → Expr} {entries : List (Key × α)}
    (hinj : ∀ first ∈ entries.map (·.2), ∀ second ∈ entries.map (·.2),
      toExpr first = toExpr second → first = second) (coverage : Coverage) :
    merging toExpr entries coverage =
      merging id (entries.map fun entry => (entry.1, toExpr entry.2)) coverage := by
  have hid : ∀ groups : List (ValueClass Expr), groups.map (·.map id) = groups := fun groups =>
    List.map_id _
  rw [merging, merging, hid, ValueClass.ofEntries_map_of_injOn hinj, List.map_map]
  rfl

variable {toExpr : α → Expr} {entries : List (Key × α)} {coverage : Coverage}

/-! ## Branches -/

/-- The classes of entries with different keys divide up the keys. -/
theorem divides_merging (hkeys : (entries.map (·.1)).Nodup) :
    Divides ((ValueClass.ofEntries entries).map (·.map toExpr)) (entries.map (·.1)) := by
  refine ⟨hkeys, ?_⟩
  rw [List.flatMap_map]
  exact ValueClass.flatMap_keys_ofEntries entries

/-- A merged choice has one branch for each value, or there is only one value. -/
theorem merging_cases (toExpr : α → Expr) (entries : List (Key × α)) (coverage : Coverage) :
    (∃ value, (entries.map (·.2)).eraseDups = [value] ∧
      merging toExpr entries coverage = .always (toExpr value)) ∨
    ((entries.map (·.2)).eraseDups.length ≠ 1 ∧
      merging toExpr entries coverage =
        .byKey ((ValueClass.ofEntries entries).map fun group =>
          ⟨.selecting group.keys (entries.map (·.1)), toExpr group.value⟩) coverage) := by
  by_cases hlength : (entries.map (·.2)).eraseDups.length = 1
  · obtain ⟨value, hvalue⟩ := List.length_eq_one_iff.mp hlength
    refine Or.inl ⟨value, hvalue, ?_⟩
    rw [merging, ValueClass.ofEntries_eq, hvalue]
    rfl
  · have hclasses : ((ValueClass.ofEntries entries).map (·.map toExpr)).length ≠ 1 := by
      rwa [List.length_map, ValueClass.ofEntries_eq, List.length_map]
    refine Or.inr ⟨hlength, ?_⟩
    rw [merging, ofClasses_of_length_ne_one hclasses, List.map_map]
    rfl

/-- The values of a merged choice are those of the entries, each once, in the order of their
first occurrence. -/
theorem values_merging :
    (merging toExpr entries coverage).values = (entries.map (·.2)).eraseDups.map toExpr := by
  rcases merging_cases toExpr entries coverage with ⟨value, hvalue, hchoice⟩ | ⟨_, hchoice⟩
  · rw [hchoice, hvalue]
    rfl
  · rw [hchoice, ← ValueClass.map_value_ofEntries, List.map_map, values, List.map_map]
    rfl

/-- A merged choice does not depend on the key exactly when there is one value. -/
theorem isConstant_merging :
    (merging toExpr entries coverage).isConstant =
      decide ((entries.map (·.2)).eraseDups.length = 1) := by
  rcases merging_cases toExpr entries coverage with ⟨value, hvalue, hchoice⟩ | ⟨hlength, hchoice⟩
  · rw [hchoice, hvalue]
    rfl
  · rw [hchoice, decide_eq_false hlength]
    rfl

/-! ## Values -/

/-- **A merged choice reproduces its entries**: at the key of an entry it is the value of the
entry. -/
theorem at?_merging (hkeys : (entries.map (·.1)).Nodup) {key : Key} {value : α}
    (hentry : (key, value) ∈ entries) :
    (merging toExpr entries coverage).at? key = some (toExpr value) := by
  obtain ⟨group, hgroup, rfl, hkey⟩ := ValueClass.exists_mem_ofEntries hentry
  rcases merging_cases toExpr entries coverage with ⟨only, honly, hchoice⟩ | ⟨_, hchoice⟩
  · have hmem : group.value ∈ (entries.map (·.2)).eraseDups :=
      List.mem_eraseDups.mpr (List.mem_map_of_mem hentry)
    rw [honly, List.mem_singleton] at hmem
    rw [hchoice, hmem, Choice.at?]
  · have hdivides : Divides ((ValueClass.ofEntries entries).map (·.map toExpr)) _ :=
      divides_merging hkeys
    have hmap : group.map toExpr ∈ (ValueClass.ofEntries entries).map (·.map toExpr) :=
      List.mem_map_of_mem hgroup
    have hholds : (Condition.selecting group.keys (entries.map (·.1))).Holds key :=
      (Condition.holds_selecting_iff hkeys (hdivides.nodup_keys hmap)
        (hdivides.keys_subset hmap)).mpr (Or.inl hkey)
    have hpair : ((ValueClass.ofEntries entries).map fun group =>
        (⟨.selecting group.keys (entries.map (·.1)), toExpr group.value⟩ : Branch)).Pairwise
          fun first second => ¬ (first.condition.Holds key ∧ second.condition.Holds key) := by
      have hclasses := pairwise_selecting hdivides key
      rw [List.map_map] at hclasses
      exact hclasses
    have hbranch : (⟨.selecting group.keys (entries.map (·.1)), toExpr group.value⟩ : Branch) ∈
        (ValueClass.ofEntries entries).map fun group =>
          ⟨.selecting group.keys (entries.map (·.1)), toExpr group.value⟩ :=
      List.mem_map_of_mem hgroup
    rw [hchoice, Choice.at?, Option.map_eq_some_iff]
    refine ⟨_, (find?_eq_some_iff_of_pairwise ?_).mpr ⟨hbranch, decide_eq_true hholds⟩, rfl⟩
    simpa using hpair

/-- A choice that is merged for every key has a value at a key, or it fails there. -/
theorem isSome_at?_merging {key : Key}
    (hfails : (merging toExpr entries .everyKey).failsOtherwise →
      ((merging toExpr entries .everyKey).at? key).isSome) :
    ((merging toExpr entries .everyKey).at? key).isSome := by
  rcases merging_cases toExpr entries .everyKey with ⟨_, _, hchoice⟩ | ⟨_, hchoice⟩
  · rw [hchoice]
    rfl
  · rw [hchoice] at hfails ⊢
    exact hfails rfl

theorem mem_values_of_at? {choice : Choice} {key : Key} {value : Expr}
    (hvalue : choice.at? key = some value) : value ∈ choice.values := by
  cases choice with
  | always only => exact List.mem_singleton.mpr (Option.some.inj hvalue).symm
  | byKey branches coverage =>
      obtain ⟨branch, hbranch, rfl⟩ := Option.map_eq_some_iff.mp hvalue
      exact List.mem_map_of_mem (List.mem_of_find?_eq_some hbranch)

/-- Wherever a merged choice has a value, it is that of an entry. -/
theorem exists_entry_of_at?_merging {key : Key} {value : Expr}
    (hvalue : (merging toExpr entries coverage).at? key = some value) :
    ∃ entry ∈ entries, value = toExpr entry.2 := by
  have hmem := mem_values_of_at? hvalue
  rw [values_merging] at hmem
  obtain ⟨original, horiginal, rfl⟩ := List.mem_map.mp hmem
  obtain ⟨entry, hentry, rfl⟩ := List.mem_map.mp (List.mem_eraseDups.mp horiginal)
  exact ⟨entry, hentry, rfl⟩

end Choice

end ToolchainMerge
