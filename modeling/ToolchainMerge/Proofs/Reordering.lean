import ToolchainMerge.Proofs.Branching

/-!
# Toolchains in another order

A rule depends on the order of its toolchains in one way only: values are put into the
order in which they first occur.  This file compares the rules of two lists that hold the same
toolchains in different orders.

## Strategy

Every statement is a merged choice (`Choice.merging`), so it is enough to look at one list of
entries and a permutation of it.

* The keys of a value and the keys of the whole list are permuted, and a condition does not show
  the order of keys (`Condition.selecting_eq_of_perm`).  Hence a value has the same branch in both
  choices (`branchFor_eq_of_perm`), whatever classes the permutation splits or joins.
* The distinct values are permuted, so the branches are (`reordered_merging`), and if the distinct
  values come in the same order the choices are equal (`merging_eq_of_perm`).

The variables of a rule are pairwise different, so a statement of one rule has one counterpart in
the other (`exists_counterpart`).  `ofToolchains_perm` is the main statement.
-/

namespace ToolchainMerge

open Starlark Text

/-! ## Merged choices -/

namespace Choice

/-- Choices that differ at most in the order of their branches. -/
inductive Reordered : Choice → Choice → Prop
  | always (value : Expr) : Reordered (.always value) (.always value)
  | byKey {branches others : List Branch} (coverage : Coverage) (hperm : others.Perm branches) :
      Reordered (.byKey branches coverage) (.byKey others coverage)

variable {α : Type} [DecidableEq α] {toExpr : α → Expr} {entries others : List (Key × α)}

/-- The branch that a merged choice has for one of several values. -/
def branchFor (toExpr : α → Expr) (entries : List (Key × α)) (value : α) : Branch :=
  ⟨.selecting (ValueClass.keysOf entries value) (entries.map (·.1)), toExpr value⟩

theorem branchFor_eq_of_perm (hperm : others.Perm entries) (value : α) :
    branchFor toExpr others value = branchFor toExpr entries value := by
  have hkeys : (ValueClass.keysOf others value).Perm (ValueClass.keysOf entries value) :=
    (hperm.filter _).map _
  rw [branchFor, branchFor, Condition.selecting_eq_of_perm hkeys (hperm.map _)]

/-- A merged choice from its distinct values alone. -/
theorem merging_eq_of_length_ne_one (hlength : (entries.map (·.2)).eraseDups.length ≠ 1)
    (coverage : Coverage) :
    merging toExpr entries coverage =
      .byKey ((entries.map (·.2)).eraseDups.map (branchFor toExpr entries)) coverage := by
  rcases merging_cases toExpr entries coverage with ⟨value, hvalue, _⟩ | ⟨_, hchoice⟩
  · rw [hvalue] at hlength
    exact absurd rfl hlength
  · rw [hchoice, ValueClass.ofEntries_eq, List.map_map]
    rfl

theorem merging_eq_of_eraseDups_eq_singleton {value : α}
    (hvalue : (entries.map (·.2)).eraseDups = [value]) (coverage : Coverage) :
    merging toExpr entries coverage = .always (toExpr value) := by
  rcases merging_cases toExpr entries coverage with ⟨other, hother, hchoice⟩ | ⟨hlength, _⟩
  · have heq : other = value := List.singleton_inj.mp (hother.symm.trans hvalue)
    rw [hchoice, heq]
  · rw [hvalue] at hlength
    exact absurd rfl hlength

theorem merging_eq_of_perm (hperm : others.Perm entries)
    (hvalues : (others.map (·.2)).eraseDups = (entries.map (·.2)).eraseDups)
    (coverage : Coverage) : merging toExpr others coverage = merging toExpr entries coverage := by
  by_cases hlength : (entries.map (·.2)).eraseDups.length = 1
  · obtain ⟨value, hvalue⟩ := List.length_eq_one_iff.mp hlength
    rw [merging_eq_of_eraseDups_eq_singleton hvalue,
      merging_eq_of_eraseDups_eq_singleton (hvalues.trans hvalue)]
  · have hbranches : branchFor toExpr others = branchFor toExpr entries :=
      funext (branchFor_eq_of_perm hperm)
    rw [merging_eq_of_length_ne_one hlength, merging_eq_of_length_ne_one (hvalues ▸ hlength),
      hvalues, hbranches]

/-- **A merged choice of permuted entries** is the same up to the order of its branches. -/
theorem reordered_merging (hperm : others.Perm entries) (coverage : Coverage) :
    (merging toExpr entries coverage).Reordered (merging toExpr others coverage) := by
  have hvalues : (others.map (·.2)).eraseDups.Perm (entries.map (·.2)).eraseDups :=
    eraseDups_perm (hperm.map _)
  by_cases hlength : (entries.map (·.2)).eraseDups.length = 1
  · -- a single value is first in any order
    obtain ⟨value, hvalue⟩ := List.length_eq_one_iff.mp hlength
    have hsame := List.perm_singleton.mp (hvalue ▸ hvalues)
    rw [merging_eq_of_eraseDups_eq_singleton hvalue, merging_eq_of_eraseDups_eq_singleton hsame]
    exact .always _
  · have hbranches : branchFor toExpr others = branchFor toExpr entries :=
      funext (branchFor_eq_of_perm hperm)
    rw [merging_eq_of_length_ne_one hlength,
      merging_eq_of_length_ne_one (hvalues.length_eq ▸ hlength), hbranches]
    exact .byKey coverage (hvalues.map _)

end Choice

/-! ## When toolchains can be merged -/

theorem Family.mem_names_of_perm {α : Type} (family : Family α) {toolchains others : List Toolchain}
    (hperm : others.Perm toolchains) (name : String) :
    name ∈ family.names others ↔ name ∈ family.names toolchains := by
  rw [Family.names, Family.names, (hperm.flatMap_right _).mem_iff]

theorem DistinctStems.of_perm {α : Type} {family : Family α} {toolchains others : List Toolchain}
    (hperm : others.Perm toolchains) (hstems : DistinctStems (family.names toolchains)) :
    DistinctStems (family.names others) :=
  hstems.of_subset fun name hname => (family.mem_names_of_perm hperm name).mp hname

theorem validate_of_perm {toolchains others : List Toolchain} (hperm : others.Perm toolchains)
    (hvalid : validate toolchains = .ok ()) : validate others = .ok () := by
  obtain ⟨hne, hkeys, hwellFormed⟩ := validate_eq_ok_iff.mp hvalid
  refine validate_eq_ok_iff.mpr ⟨?_, (hperm.map _).nodup_iff.mpr hkeys, ?_⟩
  · rintro rfl
    exact hne hperm.symm.eq_nil
  · exact fun toolchain htoolchain => hwellFormed toolchain (hperm.mem_iff.mp htoolchain)

namespace Rule

variable {toolchains others : List Toolchain}

theorem ofToolchains_of_perm (hperm : others.Perm toolchains) {rule : Rule}
    (hmerge : ofToolchains toolchains = .ok rule) : ofToolchains others = .ok (merged others) := by
  obtain ⟨hvalid, hconfigs, hfeatures, _⟩ := ofToolchains_eq_ok_iff.mp hmerge
  exact ofToolchains_eq_ok_iff.mpr
    ⟨validate_of_perm hperm hvalid, hconfigs.of_perm hperm, hfeatures.of_perm hperm, rfl⟩

/-! ## The counterpart of a statement -/

/-- Two lists of toolchains bring up the distinct values of a statement in the same order.  The
values of a declaration are the items of its name, those of a field are what the toolchains
have for it. -/
def SameFirstOccurrences (role : Role) (target : String) (toolchains others : List Toolchain) :
    Prop :=
  match role with
  | .field =>
      (others.filterMap (given? .field target)).eraseDups =
        (toolchains.filterMap (given? .field target)).eraseDups
  | .declaration .actionConfig =>
      (others.filterMap (Family.actionConfigs.itemFor? target)).eraseDups =
        (toolchains.filterMap (Family.actionConfigs.itemFor? target)).eraseDups
  | .declaration .feature =>
      (others.filterMap (Family.features.itemFor? target)).eraseDups =
        (toolchains.filterMap (Family.features.itemFor? target)).eraseDups

/-- An assignment and what another order of the toolchains makes of it. -/
structure Counterpart (role : Role) (toolchains others : List Toolchain)
    (assignment counterpart : Assignment) : Prop where
  target_eq : counterpart.target = assignment.target
  reordered : assignment.choice.Reordered counterpart.choice
  eq_of_first : SameFirstOccurrences role assignment.target toolchains others →
    counterpart = assignment

theorem counterpart_fieldAssignment (hperm : others.Perm toolchains)
    {field : String × (Toolchain → Expr)} (hfield : field ∈ Toolchain.fieldValues) :
    Counterpart .field toolchains others (Toolchain.fieldAssignment toolchains field)
      (Toolchain.fieldAssignment others field) := by
  refine ⟨rfl, Choice.reordered_merging (hperm.map _) _, fun hfirst => ?_⟩
  have hvalues : ∀ toolchains : List Toolchain, toolchains.filterMap (given? .field field.1) =
      (toolchains.map fun toolchain => (toolchain.key, field.2 toolchain)).map (·.2) := by
    intro toolchains
    rw [List.map_map, ← List.filterMap_eq_map]
    exact List.filterMap_congr fun toolchain _ => given?_field hfield toolchain
  have horder : (others.filterMap (given? .field field.1)).eraseDups =
    (toolchains.filterMap (given? .field field.1)).eraseDups := hfirst
  rw [hvalues, hvalues] at horder
  rw [Toolchain.fieldAssignment, Choice.merging_eq_of_perm (hperm.map _) horder,
    Toolchain.fieldAssignment]

theorem perm_definitions {α : Type} (family : Family α) (hperm : others.Perm toolchains)
    (name : String) :
    (family.definitions name others).Perm (family.definitions name toolchains) :=
  hperm.filterMap _

theorem itemAssignment_eq_of_perm {α : Type} [DecidableEq α] (family : Family α)
    (hperm : others.Perm toolchains) (hstems : DistinctStems (family.names toolchains))
    {name : String} (hname : name ∈ family.names toolchains)
    (hfirst : (others.filterMap (family.itemFor? (family.identifier name))).eraseDups =
      (toolchains.filterMap (family.itemFor? (family.identifier name))).eraseDups) :
    family.itemAssignment others name = family.itemAssignment toolchains name := by
  rw [← family.map_definitions_eq hstems hname, ← family.map_definitions_eq (hstems.of_perm hperm)
    ((family.mem_names_of_perm hperm name).mpr hname)] at hfirst
  rw [Family.itemAssignment, Family.itemAssignment,
    Choice.merging_eq_of_perm (perm_definitions family hperm name) hfirst]

/-- **Every statement has a counterpart.** -/
theorem exists_counterpart (hperm : others.Perm toolchains)
    (hconfigs : DistinctStems (Family.actionConfigs.names toolchains))
    (hfeatures : DistinctStems (Family.features.names toolchains)) {role : Role}
    {assignment : Assignment} (hstatement : (role, assignment) ∈ (merged toolchains).statements) :
    ∃ counterpart, (role, counterpart) ∈ (merged others).statements ∧
      Counterpart role toolchains others assignment counterpart := by
  cases role with
  | field =>
      obtain ⟨field, hfield, rfl⟩ := mem_statements_field.mp hstatement
      exact ⟨_, mem_statements_field.mpr ⟨field, hfield, rfl⟩,
        counterpart_fieldAssignment hperm hfield⟩
  | declaration kind =>
      cases kind with
      | actionConfig =>
          obtain ⟨name, hname, rfl⟩ := mem_statements_actionConfig.mp hstatement
          have hname' := (Family.actionConfigs.mem_names_of_perm hperm name).mpr hname
          refine ⟨_, mem_statements_actionConfig.mpr ⟨name, hname', rfl⟩, rfl,
            Choice.reordered_merging (perm_definitions _ hperm name) _, fun hfirst => ?_⟩
          exact itemAssignment_eq_of_perm _ hperm hconfigs hname hfirst
      | feature =>
          obtain ⟨name, hname, rfl⟩ := mem_statements_feature.mp hstatement
          have hname' := (Family.features.mem_names_of_perm hperm name).mpr hname
          refine ⟨_, mem_statements_feature.mpr ⟨name, hname', rfl⟩, rfl,
            Choice.reordered_merging (perm_definitions _ hperm name) _, fun hfirst => ?_⟩
          exact itemAssignment_eq_of_perm _ hperm hfeatures hname hfirst

/-! ## Rules -/

/-- The rules of two lists of toolchains that differ only in their order. -/
structure AgreesUpToOrder (toolchains others : List Toolchain) (rule other : Rule) : Prop where
  cpus_eq : other.cpus = rule.cpus
  compilers_eq : other.compilers = rule.compilers
  target_mem_iff : ∀ target,
    target ∈ other.assignments.map (·.target) ↔ target ∈ rule.assignments.map (·.target)
  /-- The statements for a variable are of one role and differ at most in the order of their
  branches.  They are equal, and equal as texts, if the values come up in the same order. -/
  same_target : ∀ role assignment, (role, assignment) ∈ rule.statements →
    ∀ role' assignment', (role', assignment') ∈ other.statements →
      assignment'.target = assignment.target →
        role' = role ∧ assignment.choice.Reordered assignment'.choice ∧
          (SameFirstOccurrences role assignment.target toolchains others →
            assignment' = assignment ∧
              ∀ indent, assignment'.render indent = assignment.render indent)

theorem agreesUpToOrder_merged (hperm : others.Perm toolchains)
    (hconfigs : DistinctStems (Family.actionConfigs.names toolchains))
    (hfeatures : DistinctStems (Family.features.names toolchains)) :
    AgreesUpToOrder toolchains others (merged toolchains) (merged others) := by
  have htargets : ∀ {toolchains others : List Toolchain}, others.Perm toolchains →
      DistinctStems (Family.actionConfigs.names toolchains) →
      DistinctStems (Family.features.names toolchains) →
      ∀ target ∈ (merged toolchains).assignments.map (·.target),
        target ∈ (merged others).assignments.map (·.target) := by
    intro toolchains others hperm hconfigs hfeatures target htarget
    obtain ⟨assignment, hassignment, rfl⟩ := List.mem_map.mp htarget
    obtain ⟨⟨role, _⟩, hstatement, rfl⟩ := List.mem_map.mp hassignment
    obtain ⟨counterpart, hcounterpart, hsame⟩ :=
      exists_counterpart hperm hconfigs hfeatures hstatement
    exact List.mem_map.mpr ⟨counterpart, List.mem_map.mpr ⟨_, hcounterpart, rfl⟩, hsame.target_eq⟩
  refine ⟨?_, ?_, fun target => ⟨?_, ?_⟩, ?_⟩
  · exact sortedDistinct_eq_of_mem_iff fun _ => (hperm.map _).mem_iff
  · exact sortedDistinct_eq_of_mem_iff fun _ => (hperm.map _).mem_iff
  · exact htargets hperm.symm (hconfigs.of_perm hperm) (hfeatures.of_perm hperm) target
  · exact htargets hperm hconfigs hfeatures target
  · intro role assignment hstatement role' assignment' hstatement' htarget
    obtain ⟨counterpart, hcounterpart, hsame⟩ :=
      exists_counterpart hperm hconfigs hfeatures hstatement
    -- the variables of the other rule differ, so its statement is the counterpart
    have hnodup := nodup_targets_merged (hconfigs.of_perm hperm) (hfeatures.of_perm hperm)
    obtain ⟨rfl, rfl⟩ := Prod.mk.inj (statement_eq_of_target_eq hnodup hstatement' hcounterpart
      (htarget.trans hsame.target_eq.symm))
    refine ⟨rfl, hsame.reordered, fun hfirst => ?_⟩
    rw [hsame.eq_of_first hfirst]
    exact ⟨rfl, fun _ => rfl⟩

/-- **The order of toolchains does not matter** beyond the order of branches.  Two lists that
hold the same toolchains are both merged or both refused, and their rules agree up to order. -/
theorem ofToolchains_perm (hperm : others.Perm toolchains) :
    ((∃ rule, ofToolchains others = .ok rule) ↔ ∃ rule, ofToolchains toolchains = .ok rule) ∧
      ∀ rule other, ofToolchains toolchains = .ok rule → ofToolchains others = .ok other →
        AgreesUpToOrder toolchains others rule other := by
  refine ⟨⟨fun ⟨_, hmerge⟩ => ⟨_, ofToolchains_of_perm hperm.symm hmerge⟩,
    fun ⟨_, hmerge⟩ => ⟨_, ofToolchains_of_perm hperm hmerge⟩⟩, ?_⟩
  intro rule other hmerge hmerge'
  obtain ⟨_, hconfigs, hfeatures, rfl⟩ := ofToolchains_eq_ok_iff.mp hmerge
  obtain ⟨_, _, _, rfl⟩ := ofToolchains_eq_ok_iff.mp hmerge'
  exact agreesUpToOrder_merged hperm hconfigs hfeatures

/-- Three toolchains of which the last two share a cpu and a value, and the first two a
feature. -/
def interleaved : List Toolchain :=
  [{ (default : Toolchain) with
      targetCpu := "arm", targetLibc := "musl",
      features := [⟨"opt", true, [], [], [], [], []⟩] },
    { (default : Toolchain) with
      targetCpu := "k8", compiler := "gcc", targetLibc := "glibc",
      features := [⟨"opt", false, [], [], [], [], []⟩] },
    { (default : Toolchain) with targetCpu := "k8", compiler := "clang", targetLibc := "glibc" }]

theorem ofToolchains_perm_interleaved :
    interleaved.reverse.Perm interleaved ∧
      ofToolchains interleaved = .ok (merged interleaved) ∧
      ofToolchains interleaved.reverse = .ok (merged interleaved.reverse) ∧
      AgreesUpToOrder interleaved interleaved.reverse (merged interleaved)
        (merged interleaved.reverse) :=
  have hmerge : ofToolchains interleaved = .ok (merged interleaved) := by rfl
  have hmerge' : ofToolchains interleaved.reverse = .ok (merged interleaved.reverse) := by rfl
  have hperm : interleaved.reverse.Perm interleaved := List.reverse_perm interleaved
  ⟨hperm, hmerge, hmerge', (ofToolchains_perm hperm).2 _ _ hmerge hmerge'⟩

end Rule

end ToolchainMerge
