import ToolchainMerge.Assignment
import ToolchainMerge.Proofs.Layout
import ToolchainMerge.Proofs.Program

/-!
# Rendered assignments are read back

The text of an assignment is a statement of Starlark, and the statement says all there is to
the assignment: the variable, the expressions, the tests of every branch, and whether a key
without a branch is an error (`Assignment.statement`).

`parseProgram?_render` reads the text of any number of assignments.  It asks of them what a
parser must ask (`Assignment.Printable`): names that are names, and no chain or condition that
is empty.

## Strategy

Every line of the text is scanned and read by itself: `Condition.yields_render` and
`Expr.reads_render` provide its tokens, `readGuard?_separatedBy` and `readContent?_assign` what they
say.  What remains is indentation.  The lines of a chain leave its last branch open, and only the
next statement or the end of the text closes it; so the invariant of the run is not the nesting
but the statements that there would be if the text ended (`Nesting.finish?`).
-/

namespace ToolchainMerge

open Starlark Text Scan

/-! ## Assignments as statements -/

/-- The comparisons of a test, all of which have to hold. -/
def Test.comparisons : Test → List (String × String)
  | .ofCpu cpu => [("ctx.attr.cpu", cpu)]
  | .ofKey key => [("ctx.attr.cpu", key.cpu), ("ctx.attr.compiler", key.compiler)]

/-- A condition as the reader of programs knows it. -/
def Condition.guard (condition : Condition) : Guard :=
  condition.tests.map Test.comparisons

/-- A branch as an alternative that assigns its value. -/
def Branch.alternative (target : String) (branch : Branch) : Alternative :=
  ⟨branch.condition.guard, [.assign target branch.value]⟩

/-- The commands behind `else`, where there is one. -/
def Coverage.otherwise : Coverage → Option (List Command)
  | .everyKey => some [.fail "Unreachable"]
  | .someKeys => none

/-- The statement that an assignment is written as. -/
def Assignment.statement (assignment : Assignment) : Statement :=
  match assignment.choice with
  | .always value => .command (.assign assignment.target value)
  | .byKey branches coverage =>
      .choose (branches.map (Branch.alternative assignment.target)) coverage.otherwise

/-- Names that can be written where a value is expected. -/
def IsFreeName (name : String) : Prop :=
  IsPlainName name ∧ isReserved name = false

/-- Identifiers that can be written as keywords and variables. -/
def IsFreeIdentifier (name : String) : Prop :=
  isIdentifier name.toList = true ∧ isReserved name = false

/-- An expression that can be written down: none of its names is reserved. -/
abbrev Starlark.Expr.Printable (value : Expr) : Prop :=
  value.UsesOnly IsFreeName IsFreeIdentifier

/-- A choice that can be written down. -/
def Choice.Printable : Choice → Prop
  | .always value => value.Printable
  | .byKey branches _ => branches ≠ [] ∧
      ∀ branch ∈ branches, branch.condition.tests ≠ [] ∧ branch.value.Printable

/-- An assignment that can be written down. -/
structure Assignment.Printable (assignment : Assignment) : Prop where
  target : IsFreeIdentifier assignment.target
  choice : assignment.choice.Printable

/-! ## Statements determine assignments -/

theorem Test.comparisons_inj {first second : Test} (heq : first.comparisons = second.comparisons) :
    first = second := by
  rcases first with cpu | ⟨cpu, compiler⟩ <;> rcases second with cpu' | ⟨cpu', compiler'⟩ <;>
    simp_all [comparisons]

theorem Condition.guard_inj {first second : Condition} (heq : first.guard = second.guard) :
    first = second := by
  cases first
  cases second
  exact congrArg _ ((List.map_inj_right fun _ _ => Test.comparisons_inj).mp heq)

theorem Branch.alternative_inj {target target' : String} {first second : Branch}
    (heq : first.alternative target = second.alternative target') :
    target = target' ∧ first = second := by
  simp only [alternative, Alternative.mk.injEq, List.cons.injEq, Command.assign.injEq] at heq
  obtain ⟨hguard, ⟨htarget, hvalue⟩, -⟩ := heq
  exact ⟨htarget, congrArg₂ Branch.mk (Condition.guard_inj hguard) hvalue⟩

theorem Coverage.otherwise_inj {first second : Coverage}
    (heq : first.otherwise = second.otherwise) : first = second := by
  cases first <;> cases second <;> simp_all [otherwise]

/-- The statement of an assignment that can be written says all there is to it. -/
theorem Assignment.statement_inj {first second : Assignment} (hfirst : first.Printable)
    (heq : first.statement = second.statement) : first = second := by
  obtain ⟨target, choice⟩ := first
  obtain ⟨target', choice'⟩ := second
  have hchoice := hfirst.choice
  unfold statement at heq
  cases choice with
  | always value =>
      cases choice' with
      | always value' =>
          simp only [Statement.command.injEq, Command.assign.injEq] at heq
          rw [heq.1, heq.2]
      | byKey branches' coverage' => exact nomatch heq
  | byKey branches coverage =>
      cases choice' with
      | always value' => exact nomatch heq
      | byKey branches' coverage' =>
          simp only [Statement.choose.injEq] at heq
          obtain ⟨hbranches, hcoverage⟩ := heq
          -- the variable is that of the first branch
          obtain ⟨branch, rest, rfl⟩ := List.exists_cons_of_ne_nil hchoice.1
          have htarget : target = target' := by
            cases branches' with
            | nil => exact nomatch hbranches
            | cons branch' rest' => exact (Branch.alternative_inj (List.cons.inj hbranches).1).1
          subst htarget
          rw [(List.map_inj_right fun _ _ heq => (Branch.alternative_inj heq).2).mp hbranches,
            Coverage.otherwise_inj hcoverage]

theorem Assignment.map_statement_inj {first second : List Assignment}
    (hfirst : ∀ assignment ∈ first, assignment.Printable)
    (heq : first.map statement = second.map statement) : first = second := by
  induction first generalizing second with
  | nil => exact (List.map_eq_nil_iff.mp heq.symm).symm
  | cons assignment rest ih =>
      cases second with
      | nil => exact nomatch heq
      | cons other others =>
          rw [List.forall_mem_cons] at hfirst
          obtain ⟨hhead, htail⟩ := List.cons.inj heq
          rw [statement_inj hfirst.1 hhead, ih hfirst.2 htail]

/-! ## Conditions -/

namespace Test

/-- The tokens of a test. -/
def tokens : Test → List Token
  | .ofCpu cpu => [.name "ctx.attr.cpu", .equals, .literal cpu]
  | .ofKey key => [.name "ctx.attr.cpu", .equals, .literal key.cpu, .name "and",
      .name "ctx.attr.compiler", .equals, .literal key.compiler]

theorem yields_comparison {name : String} (hpath : isPath name.toList = true) (value : String) :
    Yields (name.toList ++ [' ', '=', '=', ' '] ++ (quote value).toList)
      [.name name, .equals, .literal value] :=
  (yields_name hpath).join joins_equals (yields_quote value)

theorem toList_render_ofCpu (cpu : String) : (Test.ofCpu cpu).render.toList =
    "ctx.attr.cpu".toList ++ [' ', '=', '=', ' '] ++ (quote cpu).toList := by
  have hcpu : "ctx.attr.cpu == ".toList = "ctx.attr.cpu".toList ++ [' ', '=', '=', ' '] := by decide
  unfold Test.render
  rw [String.toList_append, hcpu]

theorem toList_render_ofKey (key : Key) : (Test.ofKey key).render.toList =
    "ctx.attr.cpu".toList ++ [' ', '=', '=', ' '] ++ (quote key.cpu).toList ++
      (' ' :: ("and".toList ++ [' '])) ++
      ("ctx.attr.compiler".toList ++ [' ', '=', '=', ' '] ++ (quote key.compiler).toList) := by
  have hcpu : "ctx.attr.cpu == ".toList = "ctx.attr.cpu".toList ++ [' ', '=', '=', ' '] := by decide
  have hand : " and ctx.attr.compiler == ".toList = ' ' :: ("and".toList ++ [' ']) ++
      ("ctx.attr.compiler".toList ++ [' ', '=', '=', ' ']) := by
    decide
  unfold Test.render
  rw [String.toList_append, String.toList_append, String.toList_append, hcpu, hand]
  simp only [List.append_assoc, List.cons_append]

theorem yields_render (test : Test) : Yields test.render.toList test.tokens := by
  have hcpu : isPath "ctx.attr.cpu".toList = true := by decide
  have hcompiler : isPath "ctx.attr.compiler".toList = true := by decide
  cases test with
  | ofCpu cpu =>
      rw [toList_render_ofCpu]
      exact yields_comparison hcpu cpu
  | ofKey key =>
      have hand : Joins (' ' :: ("and".toList ++ [' '])) [.name "and"] := joins_word (by decide)
      rw [toList_render_ofKey]
      exact (yields_comparison hcpu key.cpu).join hand (yields_comparison hcompiler key.compiler)

theorem readGuard?_last (test : Test) :
    readGuard? (test.tokens ++ [Token.mark ')', Token.mark ':']) = some [test.comparisons] := by
  have hcpu : isReserved "ctx.attr.cpu" = false := by decide
  have hcompiler : isReserved "ctx.attr.compiler" = false := by decide
  cases test with
  | ofCpu cpu => simp [tokens, comparisons, readGuard?, hcpu]
  | ofKey key => simp [tokens, comparisons, readGuard?, hcpu, hcompiler]

theorem readGuard?_or (test : Test) {rest : List Token} {guard : Guard}
    (hrest : readGuard? rest = some guard) :
    readGuard? (test.tokens ++ [Token.name "or"] ++ rest) = some (test.comparisons :: guard) := by
  have hcpu : isReserved "ctx.attr.cpu" = false := by decide
  have hcompiler : isReserved "ctx.attr.compiler" = false := by decide
  cases test with
  | ofCpu cpu => simp [tokens, comparisons, readGuard?, hcpu, hrest]
  | ofKey key => simp [tokens, comparisons, readGuard?, hcpu, hcompiler, hrest]

end Test

/-- The separator between the tests of a condition. -/
theorem standsBetween_or (width : Nat) :
    StandsBetween ("\n" ++ spaces width ++ "or ").toList [Token.name "or"] := by
  have hchars : ("\n" ++ spaces width ++ "or ").toList =
      '\n' :: (List.replicate width ' ' ++ ("or".toList ++ [' '])) := by
    simp [spaces]
  rw [hchars]
  refine ⟨⟨'\n', by decide, _, rfl⟩, rfl, fun lines indent tokens hopen rest => ?_⟩
  have hle : tokens.countP Token.isClosing ≤ tokens.countP Token.isOpening :=
    Nat.le_of_lt (of_decide_eq_true hopen)
  have hpath : isPath "or".toList = true := by decide
  have hword : (within lines indent tokens).read ("or".toList ++ ' ' :: rest) =
      (within lines indent (tokens ++ [Token.name "or"])).read (' ' :: rest) :=
    (yields_name hpath).reads lines indent tokens hle ' ' (by decide) rest
  rw [List.cons_append, read_cons (step_lineFeed_of_open hopen), List.append_assoc, read_spaces,
    List.append_assoc, List.singleton_append, hword, read_cons step_space]

namespace Condition

/-- The tokens of a condition between its parentheses. -/
def row (condition : Condition) : List Token :=
  separatedBy [.name "or"] (condition.tests.map Test.tokens)

/-- The tokens at the head of a branch. -/
def head (keyword : String) (condition : Condition) : List Token :=
  .name keyword :: .mark '(' :: (condition.row ++ [.mark ')', .mark ':'])

theorem yields_render (condition : Condition) (indent : Nat) :
    Yields (condition.render indent).toList
      (Token.mark '(' :: (condition.row ++ [Token.mark ')'])) := by
  have htests : YieldsParts (condition.tests.map Test.render)
      (condition.tests.map Test.tokens) := by
    induction condition.tests with
    | nil => exact .nil
    | cons test tests ih => exact .cons test.yields_render ih
  have hclosing : ')' ∈ delimiters := by decide
  have hrow := fills_joined hclosing (standsBetween_or (indent + indentStep)) htests
  have htext : (condition.render indent).toList =
      '(' :: ((joined ("\n" ++ spaces (indent + indentStep) ++ "or ")
        (condition.tests.map Test.render)).toList ++ [')']) := by
    simp [render]
  rw [htext]
  exact yields_bracketed yields_nil (by decide) hrow

end Condition

theorem readGuard?_separatedBy {tests : List Test} (htests : tests ≠ []) :
    readGuard? (separatedBy [Token.name "or"] (tests.map Test.tokens) ++
      [Token.mark ')', Token.mark ':']) = some (tests.map Test.comparisons) := by
  induction tests with
  | nil => exact absurd rfl htests
  | cons test tests ih =>
      cases tests with
      | nil => exact test.readGuard?_last
      | cons next tests =>
          have hrest := ih (List.cons_ne_nil _ _)
          have hguard := test.readGuard?_or hrest
          simpa [separatedBy] using hguard

/-! ## Lines -/

theorem readsLines_head {keyword : String} {content : Guard → Content}
    (hkeyword : keyword = "if" ∧ content = .when ∨ keyword = "elif" ∧ content = .elseWhen)
    {condition : Condition} (htests : condition.tests ≠ []) (indent : Nat) :
    ReadsLines (spaces indent ++ keyword ++ " " ++ condition.render indent ++ ":\n")
      [(indent, content condition.guard)] := by
  have hguard : readGuard? (condition.row ++ [Token.mark ')', Token.mark ':']) =
      some condition.guard := readGuard?_separatedBy htests
  have hword : isPath keyword.toList = true := by
    rcases hkeyword with ⟨rfl, -⟩ | ⟨rfl, -⟩ <;> decide
  have hcontent : readContent? (condition.head keyword) = some (content condition.guard) := by
    rcases hkeyword with ⟨rfl, rfl⟩ | ⟨rfl, rfl⟩ <;> simp [Condition.head, readContent?, hguard]
  have hbody : (keyword ++ " " ++ condition.render indent ++ ":").toList =
      keyword.toList ++ [' '] ++ (condition.render indent).toList ++ [':'] := by
    simp
  have hyields : Yields (keyword ++ " " ++ condition.render indent ++ ":").toList
      (condition.head keyword) := by
    have htokens : condition.head keyword = [Token.name keyword] ++ [] ++
        Token.mark '(' :: (condition.row ++ [Token.mark ')']) ++ [Token.mark ':'] := by
      simp [Condition.head]
    rw [hbody, htokens]
    exact ((yields_name hword).join joins_space (condition.yields_render indent)).mark (Or.inr rfl)
  have htext : spaces indent ++ keyword ++ " " ++ condition.render indent ++ ":\n" =
      spaces indent ++ (keyword ++ " " ++ condition.render indent ++ ":") ++ "\n" := by
    have hend : ":\n" = ":" ++ "\n" := by decide
    rw [hend]
    simp only [String.append_assoc]
  have hstart : ∃ char chars, (keyword ++ " " ++ condition.render indent ++ ":").toList =
      char :: chars ∧ isWordStart char = true := by
    obtain ⟨first, others, hchars, hfirst, -⟩ := word_of_isPath hword
    exact ⟨first, _, by rw [hbody, hchars]; rfl, hfirst⟩
  rw [htext]
  exact readsLines_line hyields hstart hcontent indent

namespace Starlark.Expr

mutual

theorem avoidsReserved_of_printable : (value : Expr) → value.Printable → value.avoidsReserved = true
  | .str _, _ => rfl
  | .bool _, _ => rfl
  | .none, _ => rfl
  | .ident name, .ident hname => by
      rw [avoidsReserved, hname.2]
      rfl
  | .list items, .list hitems => by
      rw [avoidsReserved]
      exact itemsAvoidReserved_of_printable items hitems
  | .call name args, .call hname hkeywords hvalues => by
      rw [avoidsReserved, hname.2, argsAvoidReserved_of_printable args hkeywords hvalues]
      rfl

theorem itemsAvoidReserved_of_printable : (items : List Expr) →
    (∀ item ∈ items, item.Printable) → itemsAvoidReserved items = true
  | [], _ => rfl
  | item :: items, hitems => by
      rw [List.forall_mem_cons] at hitems
      rw [itemsAvoidReserved, avoidsReserved_of_printable item hitems.1,
        itemsAvoidReserved_of_printable items hitems.2]
      rfl

theorem argsAvoidReserved_of_printable : (args : List (String × Expr)) →
    (∀ argument ∈ args, IsFreeIdentifier argument.1) →
    (∀ argument ∈ args, argument.2.Printable) → argsAvoidReserved args = true
  | [], _, _ => rfl
  | (keyword, value) :: args, hkeywords, hvalues => by
      rw [List.forall_mem_cons] at hkeywords hvalues
      have hkeyword : isReserved keyword = false := hkeywords.1.2
      rw [argsAvoidReserved, hkeyword, avoidsReserved_of_printable value hvalues.1,
        argsAvoidReserved_of_printable args hkeywords.2 hvalues.2]
      rfl

end

end Starlark.Expr

theorem readContent?_assign {target : String} (htarget : IsFreeIdentifier target)
    {tokens : List Token} {value : Expr} (hparses : Parses tokens value)
    (hvalue : value.Printable) :
    readContent? (.name target :: .mark '=' :: tokens) =
      some (.command (.assign target value)) := by
  have hchecks : (isIdentifier target.toList && !isReserved target) = true := by
    rw [htarget.1, htarget.2]
    rfl
  have hvalue? : (parseExpr? tokens).bind (fun value =>
      if value.avoidsReserved then some (Content.command (.assign target value)) else none) =
        some (.command (.assign target value)) := by
    rw [parseExpr?_of_parses hparses, Option.bind_some,
      if_pos (Expr.avoidsReserved_of_printable value hvalue)]
  simp [readContent?, hchecks, hvalue?]

theorem readsLines_renderValue {target : String} (htarget : IsFreeIdentifier target) {value : Expr}
    (hvalue : value.Printable) (indent : Nat) :
    ReadsLines (Assignment.renderValue target indent value)
      [(indent, .command (.assign target value))] := by
  have hplain : value.UsesOnly IsPlainName IsKeyword :=
    Expr.UsesOnly.mono (fun _ hname => hname.1) (fun _ hkeyword => hkeyword.1) hvalue
  obtain ⟨tokens, hyields, hparses⟩ := Expr.reads_render value hplain indent
  have hword := isPath_of_isIdentifier htarget.1
  have hline := (yields_name hword).join joins_equal hyields
  have hbody : (target ++ " = " ++ value.render indent).toList =
      target.toList ++ [' ', '=', ' '] ++ (value.render indent).toList := by
    simp
  have hstart : ∃ char chars, (target ++ " = " ++ value.render indent).toList = char :: chars ∧
      isWordStart char = true := by
    obtain ⟨first, others, hchars, hfirst, -⟩ := word_of_isPath hword
    exact ⟨first, _, by rw [hbody, hchars]; rfl, hfirst⟩
  have htext : Assignment.renderValue target indent value =
      spaces indent ++ (target ++ " = " ++ value.render indent) ++ "\n" := by
    unfold Assignment.renderValue
    simp only [String.append_assoc]
  rw [← hbody] at hline
  rw [htext]
  exact readsLines_line hline hstart (readContent?_assign htarget hparses hvalue) indent

/-- The lines behind the branches of a chain that provides for every key. -/
theorem readsLines_unreachable (indent : Nat) :
    ReadsLines (Assignment.renderOtherwise indent .everyKey)
      [(indent, .otherwise), (indent + indentStep, .command (.fail "Unreachable"))] := by
  have helse : Yields "else:".toList [.name "else", .mark ':'] := by
    have hname : isPath "else".toList = true := by decide
    exact (yields_name hname).mark (Or.inr rfl)
  have hquote : "fail(\"Unreachable\")".toList =
      "fail".toList ++ '(' :: ((joined ", " ["\"Unreachable\""]).toList ++ [')']) := by
    decide
  have hfail : Yields "fail(\"Unreachable\")".toList
      [.name "fail", .mark '(', .literal "Unreachable", .mark ')'] := by
    have hname : isPath "fail".toList = true := by decide
    have hliteral : Yields "\"Unreachable\"".toList [.literal "Unreachable"] :=
      yields_quote "Unreachable"
    rw [hquote]
    exact yields_bracketed (yields_name hname) (by decide)
      (fills_joined (by decide) standsBetween_comma (.cons hliteral .nil))
  have helseContent : readContent? [.name "else", .mark ':'] = some .otherwise := rfl
  have hfailContent : readContent? [.name "fail", .mark '(', .literal "Unreachable", .mark ')'] =
      some (.command (.fail "Unreachable")) := rfl
  have hlines := (readsLines_line helse ⟨'e', _, rfl, by decide⟩ helseContent indent).append
    (readsLines_line hfail ⟨'f', _, rfl, by decide⟩ hfailContent (indent + indentStep))
  have htext : Assignment.renderOtherwise indent .everyKey =
      spaces indent ++ "else:" ++ "\n" ++
        (spaces (indent + indentStep) ++ "fail(\"Unreachable\")" ++ "\n") := by
    have hend : "else:\n" = "else:" ++ "\n" := by decide
    have hfail : "fail(\"Unreachable\")\n" = "fail(\"Unreachable\")" ++ "\n" := by decide
    unfold Assignment.renderOtherwise
    rw [hend, hfail]
    simp only [String.append_assoc]
  rw [htext]
  exact hlines

/-! ## Assignments line by line -/

/-- The two lines of a branch, with the head that its place gives it. -/
def Branch.contents (target : String) (indent : Nat) (head : Guard → Content) (branch : Branch) :
    List (Nat × Content) :=
  [(indent, head branch.condition.guard),
    (indent + indentStep, .command (.assign target branch.value))]

/-- The lines behind the branches. -/
def Coverage.contents (indent : Nat) : Coverage → List (Nat × Content)
  | .everyKey => [(indent, .otherwise), (indent + indentStep, .command (.fail "Unreachable"))]
  | .someKeys => []

namespace Assignment

/-- The lines of some branches, the first of which opens the statement. -/
def branchContents (target : String) (indent : Nat) : List Branch → List (Nat × Content)
  | [] => []
  | first :: rest =>
      first.contents target indent .when ++ rest.flatMap (Branch.contents target indent .elseWhen)

/-- The lines of an assignment. -/
def contents (indent : Nat) (assignment : Assignment) : List (Nat × Content) :=
  match assignment.choice with
  | .always value => [(indent, .command (.assign assignment.target value))]
  | .byKey branches coverage =>
      branchContents assignment.target indent branches ++ coverage.contents indent

theorem readsLines_renderBranch {keyword : String} {head : Guard → Content}
    (hkeyword : keyword = "if" ∧ head = .when ∨ keyword = "elif" ∧ head = .elseWhen)
    {target : String} (htarget : IsFreeIdentifier target) {branch : Branch}
    (hbranch : branch.condition.tests ≠ [] ∧ branch.value.Printable) (indent : Nat) :
    ReadsLines (renderBranch target indent keyword branch) (branch.contents target indent head) :=
  (readsLines_head hkeyword hbranch.1 indent).append
    (readsLines_renderValue htarget hbranch.2 (indent + indentStep))

theorem readsLines_renderBranches {target : String} (htarget : IsFreeIdentifier target)
    {branches : List Branch}
    (hbranches : ∀ branch ∈ branches, branch.condition.tests ≠ [] ∧ branch.value.Printable)
    (indent : Nat) :
    ReadsLines (renderBranches target indent branches) (branchContents target indent branches) := by
  cases branches with
  | nil => exact readsLines_nil
  | cons first rest =>
      rw [List.forall_mem_cons] at hbranches
      have hfirst := readsLines_renderBranch (Or.inl ⟨rfl, rfl⟩) htarget hbranches.1 indent
      have hrest := readsLines_concat fun branch hbranch =>
        readsLines_renderBranch (Or.inr ⟨rfl, rfl⟩) htarget (hbranches.2 branch hbranch) indent
      exact hfirst.append hrest

theorem readsLines_render {assignment : Assignment} (hassignment : assignment.Printable)
    (indent : Nat) : ReadsLines (assignment.render indent) (assignment.contents indent) := by
  have hchoice := hassignment.choice
  unfold render contents
  cases hcases : assignment.choice with
  | always value =>
      rw [hcases] at hchoice
      exact readsLines_renderValue hassignment.target hchoice indent
  | byKey branches coverage =>
      rw [hcases] at hchoice
      have hotherwise : ReadsLines (renderOtherwise indent coverage)
          (coverage.contents indent) := by
        cases coverage with
        | everyKey => exact readsLines_unreachable indent
        | someKeys => exact readsLines_nil
      exact (readsLines_renderBranches hassignment.target hchoice.2 indent).append hotherwise

end Assignment

/-! ## Indentation -/

namespace Starlark.Nesting

/-- The lines of a program begin where the statements before them end. -/
theorem step_begin {base : Nat} {nesting : Nesting} {statements : List Statement}
    (hnesting : nesting.finish? = some statements) {content : Content}
    (hcontent : (∃ command, content = .command command) ∨ ∃ guard, content = .when guard) :
    nesting.step base (base, content) = begin? statements content := by
  have hbegin : (nesting.finish?.bind fun statements => begin? statements content) =
      begin? statements content := by
    rw [hnesting, Option.bind_some]
  unfold step
  rw [if_pos rfl]
  -- only `elif` and `else` look at the nesting itself
  rcases hcontent with ⟨command, rfl⟩ | ⟨guard, rfl⟩
  · split
    · contradiction
    · contradiction
    · exact hbegin
  · split
    · contradiction
    · contradiction
    · exact hbegin

/-- The nesting behind the branches of a chain, of which the last is still open. -/
def behind (target : String) (indent : Nat) (statements : List Statement) (before : List Branch)
    (last : Branch) : Nesting :=
  .inside statements (before.map (Branch.alternative target)) (some last.condition.guard)
    (indent + indentStep) [.assign target last.value]

theorem finish?_inside (statements : List Statement) (alternatives : List Alternative)
    (guard? : Option Guard) (width : Nat) (first : Command) (body : List Command) :
    (Nesting.inside statements alternatives guard? width (first :: body)).finish? =
      some (statements ++ [closed alternatives guard? (first :: body)]) :=
  rfl

theorem finish?_behind (target : String) (indent : Nat) (statements : List Statement)
    (before : List Branch) (last : Branch) :
    (behind target indent statements before last).finish? =
      some (statements ++
        [.choose ((before ++ [last]).map (Branch.alternative target)) none]) := by
  rw [behind, finish?_inside, List.map_append]
  rfl

/-- A line that is deeper than the statements, directly behind the head of its branch. -/
theorem step_first {base indent : Nat} (hindent : base < indent) (statements : List Statement)
    (alternatives : List Alternative) (guard? : Option Guard) (command : Command) :
    step base (.inside statements alternatives guard? 0 []) (indent, .command command) =
      some (.inside statements alternatives guard? indent [command]) := by
  unfold step
  rw [if_neg (Nat.ne_of_gt hindent)]
  exact if_pos ⟨hindent, Or.inl rfl⟩

theorem lt_add_indentStep (indent : Nat) : indent < indent + indentStep :=
  Nat.lt_add_of_pos_right (by decide)

theorem foldlM_step_contents (target : String) (indent : Nat) (statements : List Statement)
    (before : List Branch) (last next : Branch) :
    (next.contents target indent .elseWhen).foldlM (step indent)
        (behind target indent statements before last) =
      some (behind target indent statements (before ++ [last]) next) := by
  have hhead : step indent (behind target indent statements before last)
      (indent, .elseWhen next.condition.guard) =
        some (.inside statements ((before ++ [last]).map (Branch.alternative target))
          (some next.condition.guard) 0 []) := by
    unfold step behind
    rw [if_pos rfl, List.map_append]
    rfl
  unfold Branch.contents
  rw [List.foldlM_cons, hhead]
  simp only [Option.bind_eq_bind, Option.bind_some, List.foldlM_cons, List.foldlM_nil,
    step_first (lt_add_indentStep indent)]
  rfl

/-- The branches behind an `if`, one after another. -/
theorem foldlM_step_flatMap (target : String) (indent : Nat) (statements : List Statement)
    (before : List Branch) (last : Branch) (rest : List Branch) :
    ∃ front final, before ++ [last] ++ rest = front ++ [final] ∧
      (rest.flatMap (Branch.contents target indent .elseWhen)).foldlM (step indent)
        (behind target indent statements before last) =
          some (behind target indent statements front final) := by
  -- the last branch is the open one; the next `elif` closes it and opens another
  induction rest generalizing before last with
  | nil => exact ⟨before, last, List.append_nil _, rfl⟩
  | cons next rest ih =>
      obtain ⟨front, final, hbranches, hrun⟩ := ih (before ++ [last]) next
      refine ⟨front, final, ?_, ?_⟩
      · rw [← hbranches]
        simp only [List.append_assoc, List.cons_append, List.nil_append]
      · rw [List.flatMap_cons, List.foldlM_append, foldlM_step_contents]
        exact hrun

/-- A chain of branches, read behind complete statements. -/
theorem foldlM_step_branchContents (target : String) (indent : Nat) {nesting : Nesting}
    {statements : List Statement} (hnesting : nesting.finish? = some statements)
    (first : Branch) (rest : List Branch) :
    ∃ front final, first :: rest = front ++ [final] ∧
      (Assignment.branchContents target indent (first :: rest)).foldlM (step indent) nesting =
        some (behind target indent statements front final) := by
  have hif : (first.contents target indent .when).foldlM (step indent) nesting =
      some (behind target indent statements [] first) := by
    unfold Branch.contents
    rw [List.foldlM_cons, step_begin hnesting (Or.inr ⟨_, rfl⟩)]
    simp only [begin?, Option.bind_eq_bind, Option.bind_some, List.foldlM_cons,
      List.foldlM_nil, step_first (lt_add_indentStep indent)]
    rfl
  obtain ⟨front, final, hbranches, hrun⟩ :=
    foldlM_step_flatMap target indent statements [] first rest
  rw [List.nil_append, List.singleton_append] at hbranches
  refine ⟨front, final, hbranches, ?_⟩
  unfold Assignment.branchContents
  rw [List.foldlM_append, hif]
  exact hrun

/-- What stands behind the branches of a chain closes it, now or at the next statement. -/
theorem foldlM_step_otherwise (target : String) (indent : Nat) (statements : List Statement)
    (front : List Branch) (final : Branch) (coverage : Coverage) :
    ∃ next, (coverage.contents indent).foldlM (step indent)
        (behind target indent statements front final) = some next ∧
      next.finish? = some (statements ++ [.choose
        ((front ++ [final]).map (Branch.alternative target)) coverage.otherwise]) := by
  cases coverage with
  | someKeys => exact ⟨_, rfl, finish?_behind target indent statements front final⟩
  | everyKey =>
      have helse : step indent (behind target indent statements front final)
          (indent, .otherwise) = some (.inside statements
            ((front ++ [final]).map (Branch.alternative target)) none 0 []) := by
        unfold step behind
        rw [if_pos rfl, List.map_append]
        rfl
      refine ⟨.inside statements ((front ++ [final]).map (Branch.alternative target)) none
        (indent + indentStep) [.fail "Unreachable"], ?_, finish?_inside _ _ _ _ _ _⟩
      unfold Coverage.contents
      simp only [Option.bind_eq_bind, Option.bind_some, List.foldlM_cons, List.foldlM_nil,
        helse, step_first (lt_add_indentStep indent)]
      rfl

end Starlark.Nesting

open Nesting

theorem Assignment.foldlM_step_contents {assignment : Assignment}
    (hassignment : assignment.Printable) (indent : Nat) {nesting : Nesting}
    {statements : List Statement} (hnesting : nesting.finish? = some statements) :
    ∃ next, (assignment.contents indent).foldlM (step indent) nesting = some next ∧
      next.finish? = some (statements ++ [assignment.statement]) := by
  have hchoice := hassignment.choice
  unfold contents statement
  cases hcases : assignment.choice with
  | always value =>
      refine ⟨.outside (statements ++ [.command (.assign assignment.target value)]), ?_, rfl⟩
      rw [List.foldlM_cons, step_begin hnesting (Or.inl ⟨_, rfl⟩)]
      rfl
  | byKey branches coverage =>
      rw [hcases] at hchoice
      obtain ⟨first, rest, rfl⟩ := List.exists_cons_of_ne_nil hchoice.1
      -- the branches leave the last of them open, and `else` or nothing follows
      obtain ⟨front, final, hbranches, hchain⟩ :=
        foldlM_step_branchContents assignment.target indent hnesting first rest
      obtain ⟨next, hend, hfinish⟩ :=
        foldlM_step_otherwise assignment.target indent statements front final coverage
      refine ⟨next, ?_, ?_⟩
      · simp only
        rw [List.foldlM_append, hchain]
        exact hend
      · rw [hbranches]
        exact hfinish

/-- **Statements one after another.** -/
theorem foldlM_step_flatMap_contents {assignments : List Assignment}
    (hassignments : ∀ assignment ∈ assignments, assignment.Printable) (indent : Nat)
    {nesting : Nesting} {statements : List Statement}
    (hnesting : nesting.finish? = some statements) :
    ∃ next, (assignments.flatMap (Assignment.contents indent)).foldlM (step indent) nesting =
        some next ∧
      next.finish? = some (statements ++ assignments.map Assignment.statement) := by
  -- behind a chain its last branch is still open; only `finish?` is kept track of
  induction assignments generalizing nesting statements with
  | nil => exact ⟨nesting, rfl, by rw [hnesting, List.map_nil, List.append_nil]⟩
  | cons assignment assignments ih =>
      rw [List.forall_mem_cons] at hassignments
      obtain ⟨next, hstep, hnext⟩ := assignment.foldlM_step_contents hassignments.1 indent hnesting
      obtain ⟨last, hrun, hlast⟩ := ih hassignments.2 hnext
      refine ⟨last, ?_, ?_⟩
      · rw [List.flatMap_cons, List.foldlM_append, hstep]
        exact hrun
      · rw [hlast, List.map_cons, List.append_assoc]
        rfl

/-- The first line of a program is indented like its statements. -/
theorem head?_flatMap_contents {assignments : List Assignment}
    (hassignments : ∀ assignment ∈ assignments, assignment.Printable) (indent : Nat) :
    ∀ content ∈ (assignments.flatMap (Assignment.contents indent)).head?, content.1 = indent := by
  cases assignments with
  | nil => exact fun _ hcontent => nomatch hcontent
  | cons assignment assignments =>
      have hchoice := (hassignments assignment (List.mem_cons_self ..)).choice
      have hhead : ∃ content rest, assignment.contents indent = (indent, content) :: rest := by
        unfold Assignment.contents
        cases hcases : assignment.choice with
        | always value => exact ⟨_, _, rfl⟩
        | byKey branches coverage =>
            rw [hcases] at hchoice
            obtain ⟨first, rest, rfl⟩ := List.exists_cons_of_ne_nil hchoice.1
            exact ⟨_, _, rfl⟩
      obtain ⟨content, rest, hcontents⟩ := hhead
      rw [List.flatMap_cons, hcontents]
      rintro _ ⟨rfl⟩
      rfl

/-- **Rendered assignments are read back**, statement by statement. -/
theorem parseProgram?_render {assignments : List Assignment}
    (hassignments : ∀ assignment ∈ assignments, assignment.Printable) (indent : Nat) :
    parseProgram? (concat (assignments.map fun assignment => assignment.render indent ++ "\n")) =
      some (assignments.map Assignment.statement) := by
  have hlines : ReadsLines
      (concat (assignments.map fun assignment => assignment.render indent ++ "\n"))
        (assignments.flatMap fun assignment => assignment.contents indent ++ []) :=
    readsLines_concat fun assignment hassignment =>
      (assignment.readsLines_render (hassignments assignment hassignment) indent).append
        readsLines_blank
  -- the blank lines behind the assignments add nothing
  simp only [List.append_nil] at hlines
  have hempty : (Nesting.outside []).finish? = some [] := rfl
  obtain ⟨nesting, hrun, hfinish⟩ := foldlM_step_flatMap_contents hassignments indent hempty
  rw [parseProgram?_of_readsLines hlines (head?_flatMap_contents hassignments indent) hrun,
    hfinish, List.nil_append]

end ToolchainMerge
