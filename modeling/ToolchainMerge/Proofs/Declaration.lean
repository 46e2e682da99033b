import Mathlib.Data.List.Find
import ToolchainMerge.Declaration
import ToolchainMerge.Proofs.Merge
import ToolchainMerge.Proofs.NameTable

/-!
# What a family declares

`Family.declare` builds a table of names, declares each name and rewrites the lists of items.
Nothing of the table is left in what comes out: `declare_eq_ok_iff` says that there is a
result exactly when different names have different stems, and that it is made of merged
choices only, one over the definitions of each name and one over the lists of variables.

An item is found by its name, but a reader of the rule knows only the variable.  Under
distinct stems the two determine each other (`definitions_eq`).
-/

namespace ToolchainMerge.Family

open Starlark

variable {α : Type} (family : Family α) {toolchains : List Toolchain}

/-- The variable under which a name is declared. -/
def identifier (name : String) : String :=
  identifierStem name ++ family.kind.suffix

/-- The item of a toolchain that is declared under a variable. -/
def itemFor? (variableName : String) (toolchain : Toolchain) : Option α :=
  (family.items toolchain).find? fun item => family.identifier (family.name item) = variableName

/-- The list of the items of a toolchain, each given by its variable. -/
def variableList (toolchain : Toolchain) : Expr :=
  .list ((family.items toolchain).map fun item => .ident (family.identifier (family.name item)))

/-- The declaration of one name, merged from the items of that name. -/
def itemAssignment [DecidableEq α] (toolchains : List Toolchain) (name : String) : Assignment :=
  ⟨family.identifier name, .merging family.toExpr (family.definitions name toolchains) .someKeys⟩

/-- The declarations of the names that some toolchains use, with the list field itself. -/
def declared [DecidableEq α] (field : String) (toolchains : List Toolchain) : DeclaredField where
  declarations := (family.names toolchains).eraseDups.map (family.itemAssignment toolchains)
  references := ⟨field,
    .merging id (toolchains.map fun toolchain => (toolchain.key, family.variableList toolchain))
      .everyKey⟩

/-! ## The table of names -/

theorem name_mem_names {toolchain : Toolchain} (htoolchain : toolchain ∈ toolchains) {item : α}
    (hitem : item ∈ family.items toolchain) : family.name item ∈ family.names toolchains :=
  List.mem_flatMap.mpr ⟨toolchain, htoolchain, List.mem_map_of_mem hitem⟩

/-- Every item of the toolchains has a variable in the table of their names. -/
theorem references_naming {toolchain : Toolchain} (htoolchain : toolchain ∈ toolchains) :
    family.references (.naming family.kind.suffix (family.names toolchains)) toolchain =
      family.variableList toolchain := by
  have hitems : (family.items toolchain).filterMap (fun item =>
      (NameTable.naming family.kind.suffix (family.names toolchains)).get? (family.name item)) =
      (family.items toolchain).map fun item => family.identifier (family.name item) := by
    rw [← List.filterMap_eq_map]
    refine List.filterMap_congr fun item hitem => ?_
    rw [NameTable.get?_naming, if_pos (family.name_mem_names htoolchain hitem)]
    rfl
  rw [references, hitems, List.map_map]
  rfl

/-- **What a family declares.** -/
theorem declare_eq_ok_iff [DecidableEq α] {field : String} {result : DeclaredField} :
    family.declare field toolchains (toolchains.map Toolchain.key) = .ok result ↔
      DistinctStems (family.names toolchains) ∧ result = family.declared field toolchains := by
  have hresult : ∀ table, table = NameTable.naming family.kind.suffix (family.names toolchains) →
      (⟨table.entries.map fun entry => family.declaration toolchains entry.1 entry.2,
        ⟨field, .ofClasses (ValueClass.ofEntries (toolchains.map fun toolchain =>
          (toolchain.key, family.references table toolchain)))
          (toolchains.map Toolchain.key) .everyKey⟩⟩ : DeclaredField) =
        family.declared field toolchains := by
    rintro _ rfl
    have hlists : (toolchains.map fun toolchain => (toolchain.key, family.references
        (.naming family.kind.suffix (family.names toolchains)) toolchain)) =
        toolchains.map fun toolchain => (toolchain.key, family.variableList toolchain) :=
      List.map_congr_left fun toolchain htoolchain => by
        rw [family.references_naming htoolchain]
    have hid : ∀ groups : List (ValueClass Expr), groups.map (·.map id) = groups :=
      fun groups => List.map_id _
    rw [hlists, declared, Choice.merging, hid, List.map_map, NameTable.naming, List.map_map]
    rfl
  unfold declare
  constructor
  · intro h
    cases htable : NameTable.ofNames family.kind family.kind.suffix (family.names toolchains) with
    | error error =>
        rw [htable] at h
        cases h
    | ok table =>
        rw [htable] at h
        obtain ⟨hstems, heq⟩ := NameTable.ofNames_eq_ok_iff.mp htable
        exact ⟨hstems, (Except.ok.inj h).symm.trans (hresult table heq)⟩
  · rintro ⟨hstems, rfl⟩
    rw [NameTable.ofNames_eq_ok_iff.mpr ⟨hstems, rfl⟩]
    exact congrArg Except.ok (hresult _ rfl)

/-- **Why a family has no declarations.** -/
theorem declare_eq_error_iff [DecidableEq α] {field : String} {scope : List Key}
    {error : MergeError} :
    family.declare field toolchains scope = .error error ↔
      ∃ first second, FirstClash (family.names toolchains) first second ∧
        error = .sharedIdentifier family.kind (family.identifier second) first second := by
  have hnames : family.declare field toolchains scope = .error error ↔
      NameTable.ofNames family.kind family.kind.suffix (family.names toolchains) =
        .error error := by
    unfold declare
    cases NameTable.ofNames family.kind family.kind.suffix (family.names toolchains) with
    | error refused =>
        exact ⟨fun h => congrArg _ (Except.error.inj h), fun h => congrArg _ (Except.error.inj h)⟩
    | ok table => exact ⟨fun h => (nomatch h), fun h => (nomatch h)⟩
  exact hnames.trans NameTable.ofNames_eq_error_iff

/-! ## Variables -/

theorem suffix_isSuffix_identifier (name : String) :
    family.kind.suffix.toList <:+ (family.identifier name).toList := by
  rw [identifier, String.toList_append]
  exact List.suffix_append _ _

theorem identifier_injOn (hstems : DistinctStems (family.names toolchains)) {name : String}
    (hname : name ∈ family.names toolchains) {other : String}
    (hother : other ∈ family.names toolchains)
    (heq : family.identifier name = family.identifier other) : name = other :=
  hstems name hname other hother ((String.append_left_inj _).mp heq)

theorem nodup_targets_declared [DecidableEq α] (hstems : DistinctStems (family.names toolchains))
    (field : String) :
    ((family.declared field toolchains).declarations.map (·.target)).Nodup := by
  rw [declared, List.map_map]
  refine List.Nodup.map_on (fun name hname other hother heq => ?_) (nodup_eraseDups _)
  rw [List.mem_eraseDups] at hname hother
  exact family.identifier_injOn hstems hname hother heq

/-! ## Definitions -/

/-- The definitions of a name are the items declared under its variable. -/
theorem definitions_eq (hstems : DistinctStems (family.names toolchains)) {name : String}
    (hname : name ∈ family.names toolchains) :
    family.definitions name toolchains = toolchains.filterMap fun toolchain =>
      (family.itemFor? (family.identifier name) toolchain).map
        fun item => (toolchain.key, item) := by
  refine List.filterMap_congr fun toolchain htoolchain => congrArg _ ?_
  rw [itemFor?]
  refine List.find?_congr fun item hitem => ?_
  have hiff : family.identifier (family.name item) = family.identifier name ↔
      family.name item = name :=
    ⟨family.identifier_injOn hstems (family.name_mem_names htoolchain hitem) hname, congrArg _⟩
  exact (decide_eq_decide.mpr hiff).symm

/-- The definitions of a name come from different toolchains. -/
theorem keys_definitions_sublist (name : String) (toolchains : List Toolchain) :
    ((family.definitions name toolchains).map (·.1)).Sublist (toolchains.map Toolchain.key) := by
  induction toolchains with
  | nil => exact List.Sublist.refl _
  | cons toolchain rest ih =>
      rw [definitions, List.filterMap_cons]
      split
      · exact ih.cons _
      · rename_i definition hdefinition
        obtain ⟨item, _, rfl⟩ := Option.map_eq_some_iff.mp hdefinition
        exact ih.cons_cons _

/-- An item whose name does not repeat in its toolchain is the definition of its name there. -/
theorem mem_definitions {toolchain : Toolchain} (htoolchain : toolchain ∈ toolchains)
    (hnodup : ((family.items toolchain).map family.name).Nodup) {item : α}
    (hitem : item ∈ family.items toolchain) :
    (toolchain.key, item) ∈ family.definitions (family.name item) toolchains := by
  refine List.mem_filterMap.mpr ⟨toolchain, htoolchain, Option.map_eq_some_iff.mpr ⟨item, ?_, rfl⟩⟩
  exact find?_eq_of_nodup_map hnodup hitem

theorem definitions_ne_nil {name : String} (hname : name ∈ family.names toolchains) :
    family.definitions name toolchains ≠ [] := by
  obtain ⟨toolchain, htoolchain, hmem⟩ := List.mem_flatMap.mp hname
  obtain ⟨item, hitem, rfl⟩ := List.mem_map.mp hmem
  have hsome : ((family.items toolchain).find? fun other =>
      family.name other = family.name item).isSome :=
    List.find?_isSome.mpr ⟨item, hitem, decide_eq_true rfl⟩
  obtain ⟨found, hfound⟩ := Option.isSome_iff_exists.mp hsome
  refine List.ne_nil_of_mem (a := (toolchain.key, found)) (List.mem_filterMap.mpr
    ⟨toolchain, htoolchain, Option.map_eq_some_iff.mpr ⟨found, hfound, rfl⟩⟩)

end ToolchainMerge.Family
