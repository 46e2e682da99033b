import ToolchainMerge.Proofs.Body
import ToolchainMerge.Proofs.Identifier
import ToolchainMerge.Proofs.Reproduction

/-!
# The body of a rule is read back

Everything that a merged rule assigns can be written down.  Its variables are fields or end in
the suffix of an item, so that none of them is a reserved word; its expressions use what a rule
file loads; and every branch was made for some key, so no condition is empty.

`parseProgram?_renderBody` follows: the text of a rule is a program, and the statements of the
program are those of the rule.
-/

namespace ToolchainMerge

open Starlark

/-! ## Variables -/

/-- Lower-case letters, digits and underscores are characters of identifiers. -/
theorem isIdentifier_of_isLowerIdentifier {chars : List Char}
    (hchars : isLowerIdentifier chars = true) : isIdentifier chars = true := by
  have hstart : ∀ char, isLowerStart char = true → isWordStart char = true := by
    intro char hchar
    rw [isLowerStart, Bool.or_eq_true] at hchar
    rw [isWordStart, Char.isAlpha, Bool.or_assoc, Bool.or_eq_true, Bool.or_eq_true]
    exact Or.inr hchar
  have hname : ∀ char, isLowerNameChar char = true → isNameChar char = true := by
    intro char hchar
    rw [isLowerNameChar, Bool.or_eq_true] at hchar
    rcases hchar with hchar | hdigit
    · exact isNameChar_of_isWordStart (hstart char hchar)
    · rw [isNameChar, Char.isAlphanum, hdigit, Bool.or_true, Bool.true_or]
  cases chars with
  | nil => exact hchars
  | cons first rest =>
      rw [isLowerIdentifier, Bool.and_eq_true, List.all_eq_true] at hchars
      rw [isIdentifier, hstart first hchars.1, Bool.true_and, List.all_eq_true]
      exact fun char hchar => hname char (hchars.2 char hchar)

theorem isReserved_of_isIdentifier {name : String} (hname : isIdentifier name.toList = true) :
    isReserved name = decide (name ∈ reservedWords) := by
  rw [isReserved, splitOn_of_isIdentifier hname, List.any_cons, List.any_nil, Bool.or_false,
    String.ofList_toList]

/-- An identifier behind another one and a dot. -/
theorem isFreeName_dot {first second : String} (hfirst : IsFreeIdentifier first)
    (hsecond : IsFreeIdentifier second) : IsFreeName (first ++ "." ++ second) := by
  have hchars : (first ++ "." ++ second).toList = first.toList ++ '.' :: second.toList := by
    simp
  have hsplit : (first ++ "." ++ second).toList.splitOn '.' = [first.toList, second.toList] := by
    rw [hchars, List.splitOn_append_cons_self, splitOn_of_isIdentifier hfirst.1,
      splitOn_of_isIdentifier hsecond.1]
    rfl
  have hreserved : ∀ {name : String}, IsFreeIdentifier name →
      decide (String.ofList name.toList ∈ reservedWords) = false := fun hname => by
    rw [String.ofList_toList, ← isReserved_of_isIdentifier hname.1]
    exact hname.2
  refine ⟨⟨?_, fun hconstant => ?_⟩, ?_⟩
  · rw [isPath, hsplit, List.all_cons, List.all_cons, hfirst.1, hsecond.1]
    rfl
  · have hdot : ∀ constant ∈ ["True", "False", "None"], '.' ∉ constant.toList := by decide
    refine hdot _ hconstant ?_
    rw [hchars]
    exact List.mem_append_right _ (List.mem_cons_self ..)
  · rw [isReserved, hsplit, List.any_cons, List.any_cons, hreserved hfirst, hreserved hsecond]
    rfl

/-- An identifier that ends in the suffix of an item is not reserved, nor is it a constant. -/
theorem isFree_of_isSuffix {name : String} (hname : isIdentifier name.toList = true)
    {kind : ItemKind} (hsuffix : kind.suffix.toList <:+ name.toList) :
    IsFreeIdentifier name ∧ IsFreeName name := by
  have hwords : ∀ word ∈ reservedWords ++ ["True", "False", "None"],
      ¬ kind.suffix.toList <:+ word.toList := by
    cases kind <;> decide
  have hreserved : isReserved name = false := by
    rw [isReserved_of_isIdentifier hname]
    exact decide_eq_false fun hmem => hwords name (List.mem_append_left _ hmem) hsuffix
  exact ⟨⟨hname, hreserved⟩, ⟨isPath_of_isIdentifier hname, fun hmem =>
    hwords name (List.mem_append_right _ hmem) hsuffix⟩, hreserved⟩

/-- The variable of an item can be written. -/
theorem Family.isFree_identifier {α : Type} (family : Family α) (name : String) :
    IsFreeIdentifier (family.identifier name) ∧ IsFreeName (family.identifier name) :=
  isFree_of_isSuffix (isIdentifier_of_isLowerIdentifier (family.isLowerIdentifier_identifier name))
    (family.suffix_isSuffix_identifier name)

/-! ## Expressions -/

instance : DecidablePred IsFreeName := fun _ => inferInstanceAs (Decidable ((_ ∧ _) ∧ _))

instance : DecidablePred IsFreeIdentifier := fun _ => inferInstanceAs (Decidable (_ ∧ _))

theorem isFreeName_of_mem_loaded {name : String} (hname : name ∈ Rule.loaded) :
    IsFreeName name := by
  rcases List.mem_append.mp hname with hname | hname
  · have hconstructors : ∀ name ∈ Rule.constructors, IsFreeName name := by decide +kernel
    exact hconstructors name hname
  · have hactions : ∀ action ∈ ActionName.standard,
        action ≠ "" ∧ identifierStem action ∉ reservedWords := by
      decide +kernel
    obtain ⟨action, haction, rfl⟩ := List.mem_map.mp hname
    obtain ⟨hne, hreserved⟩ := hactions action haction
    have htable : IsFreeIdentifier "ACTION_NAMES" := by decide
    have hstem := isIdentifier_of_isLowerIdentifier (isLowerIdentifier_identifierStem hne)
    have hdotted : ("ACTION_NAMES." : String) = "ACTION_NAMES" ++ "." := by decide
    show IsFreeName ("ACTION_NAMES." ++ identifierStem action)
    rw [hdotted]
    exact isFreeName_dot htable
      ⟨hstem, (isReserved_of_isIdentifier hstem).trans (decide_eq_false hreserved)⟩

theorem printable_of_loaded {value : Expr} (hvalue : value.Loaded) : value.Printable := by
  have hkeywords : ∀ keyword ∈ Rule.keywords, IsFreeIdentifier keyword := by decide +kernel
  exact hvalue.usesOnly.mono (fun _ => isFreeName_of_mem_loaded) hkeywords

theorem Family.printable_variableList {α : Type} (family : Family α) (toolchain : Toolchain) :
    (family.variableList toolchain).Printable :=
  .list (List.forall_mem_map.mpr fun _ _ => .ident (family.isFree_identifier _).2)

namespace Toolchain

theorem printable_of_mem_fieldValues {field : String × (Toolchain → Expr)}
    (hfield : field ∈ fieldValues) (toolchain : Toolchain) : (field.2 toolchain).Printable := by
  rw [fieldValues, List.mem_append, List.mem_cons, List.mem_cons] at hfield
  rcases hfield with htext | rfl | rfl | hlist
  · exact printable_of_loaded (loaded_of_plain (List.mem_append_left _ htext) toolchain)
  · exact Family.actionConfigs.printable_variableList toolchain
  · exact Family.features.printable_variableList toolchain
  · exact printable_of_loaded (loaded_of_plain (List.mem_append_right _ hlist) toolchain)

end Toolchain

/-! ## Assignments -/

theorem Choice.printable_merging {α : Type} [DecidableEq α] {toExpr : α → Expr}
    {entries : List (Key × α)} (hentries : entries ≠ [])
    (hvalues : ∀ entry ∈ entries, (toExpr entry.2).Printable) (coverage : Coverage) :
    (merging toExpr entries coverage).Printable := by
  rcases merging_cases toExpr entries coverage with ⟨only, honly, hchoice⟩ | ⟨_, hchoice⟩
  · have hmem : only ∈ entries.map (·.2) := by
      rw [← List.mem_eraseDups, honly]
      exact List.mem_singleton.mpr rfl
    obtain ⟨entry, hentry, rfl⟩ := List.mem_map.mp hmem
    rw [hchoice]
    exact hvalues entry hentry
  · rw [hchoice]
    refine ⟨?_, List.forall_mem_map.mpr fun group hgroup => ⟨?_, ?_⟩⟩
    · obtain ⟨entry, hentry⟩ := List.exists_mem_of_ne_nil entries hentries
      obtain ⟨group, hgroup, _⟩ := ValueClass.exists_mem_ofEntries hentry
      exact List.ne_nil_of_mem (List.mem_map_of_mem hgroup)
    · exact Condition.tests_selecting_ne_nil (ValueClass.keys_ne_nil_of_mem_ofEntries hgroup)
    · obtain ⟨entry, hentry, hvalue⟩ := List.mem_map.mp (ValueClass.mem_ofEntries.mp hgroup).1
      show (toExpr group.value).Printable
      rw [← hvalue]
      exact hvalues entry hentry

namespace Rule

variable {toolchains : List Toolchain} {rule : Rule}

theorem printable_itemAssignment {α : Type} [DecidableEq α] (family : Family α)
    (hloaded : ∀ item, (family.toExpr item).Loaded) {name : String}
    (hname : name ∈ family.names toolchains) : (family.itemAssignment toolchains name).Printable :=
  ⟨(family.isFree_identifier name).1, Choice.printable_merging (family.definitions_ne_nil hname)
    (fun _ _ => printable_of_loaded (hloaded _)) _⟩

/-- **What a merged rule assigns can be written down.** -/
theorem printable_of_mem_assignments (hne : toolchains ≠ []) :
    ∀ assignment ∈ (merged toolchains).assignments, assignment.Printable := by
  intro assignment hassignment
  obtain ⟨⟨role, _⟩, hstatement, rfl⟩ := List.mem_map.mp hassignment
  cases role with
  | field =>
      obtain ⟨field, hfield, rfl⟩ := mem_statements_field.mp hstatement
      have htargets : ∀ target ∈ Toolchain.fieldValues.map (·.1), IsFreeIdentifier target := by
        decide +kernel
      refine ⟨htargets _ (List.mem_map_of_mem hfield), Choice.printable_merging ?_ ?_ _⟩
      · exact fun hnil => hne (List.map_eq_nil_iff.mp hnil)
      · exact List.forall_mem_map.mpr fun toolchain _ =>
          Toolchain.printable_of_mem_fieldValues hfield toolchain
  | declaration kind =>
      cases kind with
      | actionConfig =>
          obtain ⟨name, hname, rfl⟩ := mem_statements_actionConfig.mp hstatement
          exact printable_itemAssignment _ ActionConfig.loaded_toExpr hname
      | feature =>
          obtain ⟨name, hname, rfl⟩ := mem_statements_feature.mp hstatement
          exact printable_itemAssignment _ Feature.loaded_toExpr hname

/-- **The body of a rule is read back**, and so it determines what the rule assigns. -/
theorem parseProgram?_renderBody (hmerge : ofToolchains toolchains = .ok rule) :
    parseProgram? rule.renderBody = some (rule.assignments.map Assignment.statement) ∧
      ∀ others other, ofToolchains others = .ok other → other.renderBody = rule.renderBody →
        other.assignments = rule.assignments := by
  have hread : ∀ {toolchains rule}, ofToolchains toolchains = .ok rule →
      (∀ assignment ∈ rule.assignments, assignment.Printable) ∧
        parseProgram? rule.renderBody = some (rule.assignments.map Assignment.statement) := by
    intro toolchains rule hmerge
    obtain ⟨hvalid, _, _, rfl⟩ := ofToolchains_eq_ok_iff.mp hmerge
    have hprintable := printable_of_mem_assignments (validate_eq_ok_iff.mp hvalid).1
    exact ⟨hprintable, parseProgram?_render hprintable indentStep⟩
  refine ⟨(hread hmerge).2, fun others other hother hbody => ?_⟩
  have hstatements : other.assignments.map Assignment.statement =
      rule.assignments.map Assignment.statement := by
    have hsome := (hread hother).2
    rw [hbody, (hread hmerge).2] at hsome
    exact (Option.some.inj hsome).symm
  exact Assignment.map_statement_inj (hread hother).1 hstatements

theorem parseProgram?_renderBody_partlyShared :
    ofToolchains partlyShared = .ok (merged partlyShared) ∧
      parseProgram? (merged partlyShared).renderBody =
        some ((merged partlyShared).assignments.map Assignment.statement) ∧
      ∀ others other, ofToolchains others = .ok other →
        other.renderBody = (merged partlyShared).renderBody →
          other.assignments = (merged partlyShared).assignments :=
  have hmerge : ofToolchains partlyShared = .ok (merged partlyShared) := by rfl
  ⟨hmerge, parseProgram?_renderBody hmerge⟩

end Rule

end ToolchainMerge
