import Mathlib.Logic.Function.Basic
import ToolchainMerge.Proofs.Names
import ToolchainMerge.Proofs.Statements

/-!
# Executing a rule

The body of a rule is executed for one key.  Assignments are carried out in their order; each
reads the names that its condition and its value mention, and then binds its variable.  Two
things can go wrong: a chain that provides for every key has no branch for this one, or a
name is read that has no value.

The main statement is `run_ofToolchains`: at the key of a toolchain nothing goes wrong, and in
the end the variables describe that toolchain.  The obstacles are

* names of the file: the body must not assign what it reads from there, since a variable of
  the body hides a name of the file everywhere in the body;
* declarations that have no value at the key, which is why the list of a toolchain may only
  mention its own items;
* other assignments to one variable, of which there are none (`nodup_targets_merged`).
-/

namespace ToolchainMerge

open Starlark

/-- The values of the variables so far. -/
abbrev Bindings : Type :=
  String → Option Expr

/-- Why an execution stops. -/
inductive Fault where
  /-- No branch holds, although the chain provides for every key. -/
  | unreachable (target : String)
  /-- A name without a value is read. -/
  | unbound (name : String)
deriving DecidableEq, Repr

/-- The variable through which conditions read the attributes of the key. -/
def Rule.context : String := "ctx"

/-- The names that are read when the value for a key is chosen. -/
def Choice.reads (key : Key) (choice : Choice) : List String :=
  (if choice.isConstant then [] else [Rule.context]) ++ (choice.at? key).elim [] Expr.names

namespace Assignment

/-- Binds the variable to the value for a key; without a value nothing is bound. -/
def assign (key : Key) (bindings : Bindings) (assignment : Assignment) : Bindings :=
  match assignment.choice.at? key with
  | some value => Function.update bindings assignment.target (some value)
  | none => bindings

/-- Executes an assignment.  The names in `outer` have values from outside the body. -/
def execute (outer : List String) (key : Key) (bindings : Bindings) (assignment : Assignment) :
    Except Fault Bindings :=
  match (assignment.choice.reads key).find? fun name => name ∉ outer ∧ bindings name = none with
  | some name => .error (.unbound name)
  | none =>
      if assignment.choice.failsOtherwise ∧ assignment.choice.at? key = none then
        .error (.unreachable assignment.target)
      else .ok (assignment.assign key bindings)

end Assignment

namespace Rule

/-- The first component of a dotted name, which is the variable that it reads. -/
def rootOf (name : String) : String :=
  String.ofList (name.toList.takeWhile fun char => char ≠ '.')

/-- The names from outside the body that the body can read: its parameter and what the file
loads, unless the body assigns a variable of that name. -/
def outer (rule : Rule) : List String :=
  (context :: loaded).filter fun name => rootOf name ∉ rule.assignments.map (·.target)

/-- Executes the statements of a rule for one key, from no bindings at all. -/
def run (rule : Rule) (key : Key) : Except Fault Bindings :=
  rule.assignments.foldlM (Assignment.execute rule.outer key) fun _ => none

end Rule

/-! ## Blocks of assignments -/

namespace Assignment

variable {outer : List String} {key : Key}

/-- An assignment that can be executed: what it reads has a value, and it has a value itself
if it must. -/
def Ready (outer : List String) (key : Key) (bindings : Bindings) (assignment : Assignment) :
    Prop :=
  (∀ name ∈ assignment.choice.reads key, name ∈ outer ∨ (bindings name).isSome) ∧
    (assignment.choice.failsOtherwise → (assignment.choice.at? key).isSome)

theorem execute_of_ready {bindings : Bindings} {assignment : Assignment}
    (hready : assignment.Ready outer key bindings) :
    assignment.execute outer key bindings = .ok (assignment.assign key bindings) := by
  have hreads : (assignment.choice.reads key).find?
      (fun name => name ∉ outer ∧ bindings name = none) = none := by
    rw [List.find?_eq_none]
    intro name hname hunbound
    obtain ⟨houter, hnone⟩ := of_decide_eq_true hunbound
    rcases hready.1 name hname with hmem | hsome
    · exact houter hmem
    · rw [hnone] at hsome
      exact nomatch hsome
  have hvalue : ¬ (assignment.choice.failsOtherwise ∧ assignment.choice.at? key = none) := by
    rintro ⟨hfails, hnone⟩
    have hsome := hready.2 hfails
    rw [hnone] at hsome
    exact nomatch hsome
  unfold execute
  rw [hreads]
  exact if_neg hvalue

/-- **One step.**  An assignment is executed exactly when it is ready. -/
theorem execute_eq_ok_iff {bindings result : Bindings} {assignment : Assignment} :
    assignment.execute outer key bindings = .ok result ↔
      assignment.Ready outer key bindings ∧ result = assignment.assign key bindings := by
  constructor
  · intro h
    unfold execute at h
    split at h
    · exact nomatch h
    · rename_i hreads
      split_ifs at h with hvalue
      refine ⟨⟨fun name hname => ?_, fun hfails => ?_⟩, (Except.ok.inj h).symm⟩
      · have hbound := List.find?_eq_none.mp hreads name hname
        rw [decide_eq_true_iff, not_and_or, not_not] at hbound
        exact hbound.imp_right Option.isSome_iff_ne_none.mpr
      · exact Option.isSome_iff_ne_none.mpr fun hnone => hvalue ⟨hfails, hnone⟩
  · rintro ⟨hready, rfl⟩
    exact execute_of_ready hready

theorem assign_of_some {assignment : Assignment} {value : Expr}
    (hvalue : assignment.choice.at? key = some value) (bindings : Bindings) :
    assignment.assign key bindings =
      Function.update bindings assignment.target (some value) := by
  unfold assign
  rw [hvalue]

theorem assign_of_ne {assignment : Assignment} {name : String} (hne : name ≠ assignment.target)
    (bindings : Bindings) : assignment.assign key bindings name = bindings name := by
  unfold assign
  cases assignment.choice.at? key with
  | none => rfl
  | some value => exact Function.update_of_ne hne _ _

/-- A variable that has a value keeps having one. -/
theorem isSome_assign {bindings : Bindings} {name : String} (hname : (bindings name).isSome)
    (assignment : Assignment) : (assignment.assign key bindings name).isSome := by
  by_cases htarget : name = assignment.target
  · cases hvalue : assignment.choice.at? key with
    | none =>
        unfold assign
        rwa [hvalue]
    | some value =>
        rw [assign_of_some hvalue, htarget, Function.update_self]
        rfl
  · rwa [assign_of_ne htarget]

theorem isSome_foldl_assign {bindings : Bindings} {name : String}
    (hname : (bindings name).isSome) (block : List Assignment) :
    (block.foldl (assign key) bindings
      name).isSome := by
  induction block generalizing bindings with
  | nil => exact hname
  | cons assignment block ih => exact ih (isSome_assign hname assignment)

/-- A block whose assignments are all ready at its beginning is executed. -/
theorem foldlM_execute {block : List Assignment} {bindings : Bindings}
    (hready : ∀ assignment ∈ block, assignment.Ready outer key bindings) :
    block.foldlM (execute outer key) bindings = .ok (block.foldl (assign key) bindings) := by
  induction block generalizing bindings with
  | nil => rfl
  | cons assignment block ih =>
      rw [List.forall_mem_cons] at hready
      -- one assignment takes no values away from those behind it
      have hrest : ∀ other ∈ block,
          other.Ready outer key (assignment.assign key bindings) := fun other hother =>
        ⟨fun name hname => ((hready.2 other hother).1 name hname).imp_right
          fun hsome => isSome_assign hsome assignment, (hready.2 other hother).2⟩
      rw [List.foldlM_cons, execute_of_ready hready.1]
      exact ih hrest

/-- **A run.**  Where a block is executed, every assignment in it that must have a value has
one, and the variables are those that the assignments leave. -/
theorem eq_foldl_assign_of_foldlM_execute {block : List Assignment} {bindings result : Bindings}
    (hrun : block.foldlM (execute outer key) bindings = .ok result) :
    result = block.foldl (assign key) bindings ∧ ∀ assignment ∈ block,
      assignment.choice.failsOtherwise → (assignment.choice.at? key).isSome := by
  induction block generalizing bindings with
  | nil => exact ⟨(Except.ok.inj hrun).symm, List.forall_mem_nil _⟩
  | cons assignment block ih =>
      rw [List.foldlM_cons] at hrun
      cases hstep : assignment.execute outer key bindings with
      | error fault =>
          rw [hstep] at hrun
          exact nomatch hrun
      | ok next =>
          obtain ⟨hready, rfl⟩ := execute_eq_ok_iff.mp hstep
          rw [hstep] at hrun
          obtain ⟨hresult, hvalues⟩ := ih hrun
          exact ⟨hresult, List.forall_mem_cons.mpr ⟨hready.2, hvalues⟩⟩

theorem foldlM_execute_append {block others : List Assignment} {bindings : Bindings}
    (hblock : block.foldlM (execute outer key) bindings = .ok (block.foldl (assign key) bindings))
    (hothers : others.foldlM (execute outer key) (block.foldl (assign key) bindings) =
      .ok (others.foldl (assign key) (block.foldl (assign key) bindings))) :
    (block ++ others).foldlM (execute outer key) bindings =
      .ok ((block ++ others).foldl (assign key) bindings) := by
  rw [List.foldlM_append, hblock, List.foldl_append]
  exact hothers

/-! ## Looking a variable up afterwards -/

theorem foldl_assign_of_not_mem {block : List Assignment} {bindings : Bindings} {name : String}
    (hname : name ∉ block.map (·.target)) :
    block.foldl (assign key) bindings name = bindings name := by
  induction block generalizing bindings with
  | nil => rfl
  | cons assignment block ih =>
      rw [List.map_cons, List.mem_cons, not_or] at hname
      rw [List.foldl_cons, ih hname.2, assign_of_ne hname.1]

/-- A variable that is assigned once has the value of its assignment. -/
theorem foldl_assign_of_mem {block : List Assignment} (hnodup : (block.map (·.target)).Nodup)
    {assignment : Assignment} (hmem : assignment ∈ block) {value : Expr}
    (hvalue : assignment.choice.at? key = some value) (bindings : Bindings) :
    block.foldl (assign key) bindings assignment.target = some value := by
  induction block generalizing bindings with
  | nil => exact absurd hmem List.not_mem_nil
  | cons first block ih =>
      rw [List.map_cons, List.nodup_cons] at hnodup
      rw [List.foldl_cons]
      rcases List.mem_cons.mp hmem with rfl | hmem
      · rw [foldl_assign_of_not_mem hnodup.1, assign_of_some hvalue, Function.update_self]
      · exact ih hnodup.2 hmem _

/-- A variable that some assignment gives a value has one. -/
theorem isSome_foldl_assign_of_mem {block : List Assignment} {assignment : Assignment}
    (hmem : assignment ∈ block) (hvalue : (assignment.choice.at? key).isSome)
    (bindings : Bindings) : (block.foldl (assign key) bindings assignment.target).isSome := by
  induction block generalizing bindings with
  | nil => exact absurd hmem List.not_mem_nil
  | cons first block ih =>
      rw [List.foldl_cons]
      rcases List.mem_cons.mp hmem with rfl | hmem
      · obtain ⟨value, hvalue⟩ := Option.isSome_iff_exists.mp hvalue
        refine isSome_foldl_assign ?_ block
        rw [assign_of_some hvalue, Function.update_self]
        rfl
      · exact ih hmem _

end Assignment

end ToolchainMerge
