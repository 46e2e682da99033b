import ToolchainMerge.Proofs.LineBreaks
import ToolchainMerge.Proofs.Merge

/-!
# Indentation moves a text

A text is the same at every indentation except that its lines are moved.  An expression starts
behind something else on its line, so what moves are the lines behind its line feeds (`shifted`);
an assignment consists of whole lines, so all of them move (`indented`).

Expressions go through `Expr.laidOut`, where no choice depends on the indentation: what fits has no
line to be moved, and of what is broken every line starts with the indentation (`laidOut_add`).
Assignments are put together from lines and blocks of lines that move; `Moves` is closed under that.
`render_eq_moved` is the main statement.
-/

namespace ToolchainMerge

open Starlark

/-! ## Moving lines -/

namespace Text

/-- Characters with `width` spaces behind every line feed. -/
def shiftedChars (width : Nat) (chars : List Char) : List Char :=
  chars.flatMap fun char =>
    if char = '\n' then char :: List.replicate width ' ' else [char]

/-- A text with `width` spaces behind every line feed. -/
def shifted (width : Nat) (text : String) : String :=
  String.ofList (shiftedChars width text.toList)

/-- Characters with `width` spaces in front of every line, where `atStart` says whether a line
starts with the first of them.  A line starts behind a line feed if anything follows. -/
def indentedChars (width : Nat) : Bool → List Char → List Char
  | _, [] => []
  | atStart, char :: rest =>
      (if atStart then List.replicate width ' ' else []) ++
        char :: indentedChars width (char = '\n') rest

/-- A text with `width` spaces at the start of every line. -/
def indented (width : Nat) (text : String) : String :=
  String.ofList (indentedChars width true text.toList)

variable {width : Nat}

theorem spaces_add (first second : Nat) :
    spaces (first + second) = spaces first ++ spaces second := by
  rw [spaces, List.replicate_add, String.ofList_append, spaces, spaces]

theorem not_spansLines_spaces (width : Nat) : ¬ SpansLines (spaces width) := by
  simp [SpansLines, spaces]

theorem shifted_append (left right : String) :
    shifted width (left ++ right) = shifted width left ++ shifted width right := by
  simp [shifted, shiftedChars]

theorem shifted_of_not_spansLines {text : String} (htext : ¬ SpansLines text) :
    shifted width text = text := by
  have hchars : ∀ chars : List Char, '\n' ∉ chars → shiftedChars width chars = chars := by
    intro chars hchars
    induction chars with
    | nil => rfl
    | cons char chars ih =>
        rw [List.mem_cons, not_or] at hchars
        rw [shiftedChars, List.flatMap_cons, if_neg (Ne.symm hchars.1)]
        exact congrArg _ (ih hchars.2)
  rw [shifted, hchars _ htext, String.ofList_toList]

theorem shifted_lineFeed : shifted width "\n" = "\n" ++ spaces width := by
  simp [shifted, shiftedChars, spaces]

theorem shifted_joined (separator : String) (texts : List String) :
    shifted width (joined separator texts) =
      joined (shifted width separator) (texts.map (shifted width)) := by
  induction texts with
  | nil => rfl
  | cons text texts ih =>
      cases texts with
      | nil => rfl
      | cons next texts =>
          rw [joined, shifted_append, shifted_append, ih]
          rfl

/-- What a separator ends with may as well stand in front of each text behind one. -/
theorem joined_append (separator front first : String) (rest : List String) :
    joined (separator ++ front) (first :: rest) =
      joined separator (first :: rest.map (front ++ ·)) := by
  induction rest generalizing first with
  | nil => rfl
  | cons next rest ih =>
      rw [joined, ih, List.map_cons, joined]
      cases rest with
      | nil => simp [joined, String.append_assoc]
      | cons other rest => simp [joined, String.append_assoc]

theorem indentedChars_line (width : Nat) (atStart : Bool) (line rest : List Char) :
    indentedChars width atStart (line ++ '\n' :: rest) =
      (if atStart then List.replicate width ' ' else []) ++ shiftedChars width line ++
        '\n' :: indentedChars width true rest := by
  induction line generalizing atStart with
  | nil => simp [indentedChars, shiftedChars]
  | cons char line ih =>
      rw [List.cons_append, indentedChars, ih]
      by_cases hchar : char = '\n'
      · simp [shiftedChars, hchar]
      · simp [shiftedChars, hchar]

theorem indented_line (line rest : String) :
    indented width (line ++ "\n" ++ rest) =
      spaces width ++ shifted width line ++ "\n" ++ indented width rest := by
  have hchars : (line ++ "\n" ++ rest).toList = line.toList ++ '\n' :: rest.toList := by simp
  unfold indented
  rw [hchars, indentedChars_line, if_pos rfl, String.ofList_append, String.ofList_append,
    String.ofList_cons]
  simp only [shifted, spaces, String.append_assoc]
  rfl

end Text

open Text

namespace Starlark.Expr

variable {width : Nat}

/-- A broken list or call moves as a whole, its closing bracket included. -/
theorem shifted_stacked {opening closing : String} (hopening : ¬ SpansLines opening)
    (hclosing : ¬ SpansLines closing) (indent : Nat) (parts : List String) :
    shifted width (stacked opening closing indent parts) =
      stacked opening closing (indent + width) (parts.map (shifted width)) := by
  -- behind a line feed every line starts with its own spaces, to which those of the move are added
  have hline : ∀ inner text, spaces width ++ shifted width (spaces inner ++ text) =
      spaces (inner + width) ++ shifted width text := by
    intro inner text
    rw [shifted_append, shifted_of_not_spansLines (not_spansLines_spaces inner),
      Nat.add_comm inner width, spaces_add, String.append_assoc]
  have hpart : ∀ part, spaces width ++ shifted width (spaces (indent + 4) ++ part ++ ",") =
      spaces (indent + width + 4) ++ shifted width part ++ "," := by
    intro part
    have hcomma : shifted width "," = "," := shifted_of_not_spansLines (by decide)
    rw [String.append_assoc, hline, shifted_append, hcomma, Nat.add_right_comm,
      String.append_assoc]
  have hlast : spaces width ++ shifted width (spaces indent ++ closing) =
      spaces (indent + width) ++ closing := by
    rw [hline, shifted_of_not_spansLines hclosing]
  calc shifted width (stacked opening closing indent parts)
      = joined ("\n" ++ spaces width)
          (opening :: (parts.map (fun part => spaces (indent + 4) ++ part ++ ",") ++
            [spaces indent ++ closing]).map (shifted width)) := by
        rw [stacked, shifted_joined, shifted_lineFeed, List.map_cons,
          shifted_of_not_spansLines hopening]
    _ = joined "\n" (opening :: ((parts.map (fun part => spaces (indent + 4) ++ part ++ ",") ++
            [spaces indent ++ closing]).map (shifted width)).map (spaces width ++ ·)) :=
        joined_append ..
    _ = stacked opening closing (indent + width) (parts.map (shifted width)) := by
        simp only [stacked, List.map_append, List.map_map, List.map_cons, List.map_nil,
          Function.comp_def, hpart, hlast]

theorem laidOut_add_of_fits {value : Expr} (hvalue : value.NamesStayOnLine)
    (hfits : value.fits = true) (indent : Nat) :
    value.laidOut (indent + width) = shifted width (value.laidOut indent) := by
  rw [laidOut_of_fits hfits, laidOut_of_fits hfits,
    shifted_of_not_spansLines (not_spansLines_oneLine hvalue)]

/-- **Expressions move with their indentation.** -/
theorem laidOut_add {value : Expr} (hvalue : value.NamesStayOnLine) (indent : Nat) :
    value.laidOut (indent + width) = shifted width (value.laidOut indent) := by
  induction hvalue generalizing indent with
  | str text => exact laidOut_add_of_fits (.str text) rfl indent
  | bool value => exact laidOut_add_of_fits (.bool value) rfl indent
  | none => exact laidOut_add_of_fits .none rfl indent
  | ident hname => exact laidOut_add_of_fits (.ident hname) rfl indent
  | @list items hitems ih =>
      by_cases hfits : fits (.list items) = true
      · exact laidOut_add_of_fits (.list hitems) hfits indent
      · have hparts : laidOutItems (indent + width + 4) items =
            (laidOutItems (indent + 4) items).map (shifted width) := by
          rw [laidOutItems_eq_map, laidOutItems_eq_map, List.map_map, Nat.add_right_comm]
          exact List.map_congr_left fun item hitem => ih item hitem (indent + 4)
        rw [laidOut, if_neg hfits, laidOut, if_neg hfits, hparts,
          shifted_stacked (by decide) (by decide)]
  | @call name args hname hkeywords hvalues ih =>
      by_cases hfits : fits (.call name args) = true
      · exact laidOut_add_of_fits (.call hname hkeywords hvalues) hfits indent
      · have hparts : laidOutArgs (indent + width + 4) args =
            (laidOutArgs (indent + 4) args).map (shifted width) := by
          rw [laidOutArgs_eq_map, laidOutArgs_eq_map, List.map_map, Nat.add_right_comm]
          refine List.map_congr_left fun argument hargument => ?_
          have hequals : shifted width " = " = " = " := shifted_of_not_spansLines (by decide)
          rw [ih argument hargument, Function.comp_apply, shifted_append, shifted_append, hequals,
            shifted_of_not_spansLines (hkeywords argument hargument)]
        rw [laidOut, if_neg hfits, laidOut, if_neg hfits, hparts,
          shifted_stacked (not_spansLines_opening hname) (by decide)]

theorem render_add {value : Expr} (hvalue : value.NamesStayOnLine) (indent : Nat) :
    value.render (indent + width) = shifted width (value.render indent) := by
  rw [render_eq_laidOut hvalue, render_eq_laidOut hvalue, laidOut_add hvalue]

end Starlark.Expr

/-! ## Lines that move -/

/-- A text, as it depends on the indentation, that consists of lines which all move with it.
What follows the text is still at the start of a line. -/
def Moves (text : Nat → String) : Prop :=
  ∀ width rest, indented width (text 0 ++ rest) = text width ++ indented width rest

theorem Moves.eq_indented {text : Nat → String} (htext : Moves text) (width : Nat) :
    text width = indented width (text 0) := by
  have hmoved := htext width ""
  rw [String.append_empty] at hmoved
  rw [hmoved]
  exact String.append_empty.symm

theorem moves_empty : Moves fun _ => "" := fun width rest => by
  rw [String.empty_append, String.empty_append]

theorem Moves.append {text other : Nat → String} (htext : Moves text) (hother : Moves other) :
    Moves fun indent => text indent ++ other indent := by
  intro width rest
  show indented width (text 0 ++ other 0 ++ rest) = _
  rw [String.append_assoc, htext, hother, String.append_assoc]

theorem Moves.concat {α : Type} {elements : List α} {text : α → Nat → String}
    (hmoves : ∀ element ∈ elements, Moves (text element)) :
    Moves fun indent => concat (elements.map fun element => text element indent) := by
  induction elements with
  | nil => exact moves_empty
  | cons element elements ih =>
      rw [List.forall_mem_cons] at hmoves
      exact hmoves.1.append (ih hmoves.2)

/-- A line moves if what stands on it, down to its last line feed, is shifted. -/
theorem moves_line {line : Nat → String}
    (hline : ∀ indent, line indent = shifted indent (line 0)) :
    Moves fun indent => spaces indent ++ line indent ++ "\n" := by
  intro width rest
  show indented width (spaces 0 ++ line 0 ++ "\n" ++ rest) = _
  have hspaces : spaces 0 = "" := rfl
  rw [hspaces, String.empty_append, indented_line, ← hline]

/-! ## Assignments -/

theorem Test.not_spansLines_render (test : Test) : ¬ SpansLines test.render := by
  have hcpu : ¬ SpansLines "ctx.attr.cpu == " := by decide
  have hcompiler : ¬ SpansLines " and ctx.attr.compiler == " := by decide
  unfold Test.render
  cases test with
  | ofCpu cpu =>
      dsimp only
      rw [spansLines_append]
      exact not_or.mpr ⟨hcpu, not_spansLines_quote cpu⟩
  | ofKey key =>
      dsimp only
      rw [spansLines_append, spansLines_append, spansLines_append]
      simp only [hcpu, hcompiler, not_spansLines_quote, or_self, not_false_eq_true]

/-- **Conditions move with their indentation.** -/
theorem Condition.render_add (condition : Condition) (indent width : Nat) :
    condition.render (indent + width) = shifted width (condition.render indent) := by
  have hopening : shifted width "(" = "(" := shifted_of_not_spansLines (by decide)
  have hclosing : shifted width ")" = ")" := shifted_of_not_spansLines (by decide)
  have hor : shifted width "or " = "or " := shifted_of_not_spansLines (by decide)
  have htests : (condition.tests.map Test.render).map (shifted width) =
      condition.tests.map Test.render := by
    rw [List.map_map]
    exact List.map_congr_left fun test _ => shifted_of_not_spansLines test.not_spansLines_render
  have hseparator : shifted width ("\n" ++ spaces (indent + indentStep) ++ "or ") =
      "\n" ++ spaces (indent + width + indentStep) ++ "or " := by
    have hsum : indent + width + indentStep = width + (indent + indentStep) := by omega
    rw [shifted_append, shifted_append, shifted_lineFeed, hor,
      shifted_of_not_spansLines (not_spansLines_spaces _), hsum, spaces_add width]
    simp only [String.append_assoc]
  unfold Condition.render
  rw [shifted_append, shifted_append, shifted_joined, hopening, hclosing, htests, hseparator]

namespace Assignment

variable {target : String}

/-- The line or lines of a value move, `depth` columns deeper than the assignment. -/
theorem moves_renderValue (htarget : StaysOnLine target) {value : Expr}
    (hvalue : value.NamesStayOnLine) (depth : Nat) :
    Moves fun indent => renderValue target (indent + depth) value := by
  have hfront : ¬ SpansLines (spaces depth ++ target ++ " = ") := by
    have hequals : ¬ SpansLines " = " := by decide
    rw [spansLines_append, spansLines_append]
    exact not_or.mpr ⟨not_or.mpr ⟨not_spansLines_spaces depth, htarget⟩, hequals⟩
  have hline : ∀ indent, spaces depth ++ target ++ " = " ++ value.render (indent + depth) =
      shifted indent (spaces depth ++ target ++ " = " ++ value.render (0 + depth)) := by
    intro indent
    rw [shifted_append, shifted_of_not_spansLines hfront, ← Expr.render_add hvalue, Nat.zero_add,
      Nat.add_comm]
  have htext : (fun indent => renderValue target (indent + depth) value) = fun indent =>
      spaces indent ++ (spaces depth ++ target ++ " = " ++ value.render (indent + depth)) ++
        "\n" := by
    funext indent
    rw [renderValue, spaces_add]
    simp only [String.append_assoc]
  rw [htext]
  exact moves_line hline

theorem moves_renderBranch (htarget : StaysOnLine target) {keyword : String}
    (hkeyword : ¬ SpansLines keyword) {branch : Branch} (hvalue : branch.value.NamesStayOnLine) :
    Moves fun indent => renderBranch target indent keyword branch := by
  have hline : ∀ indent, keyword ++ " " ++ branch.condition.render indent ++ ":" =
      shifted indent (keyword ++ " " ++ branch.condition.render 0 ++ ":") := by
    intro indent
    have hfront : ¬ SpansLines (keyword ++ " ") := by
      have hblank : ¬ SpansLines " " := by decide
      rw [spansLines_append]
      exact not_or.mpr ⟨hkeyword, hblank⟩
    have hcolon : shifted indent ":" = ":" := shifted_of_not_spansLines (by decide)
    rw [shifted_append, shifted_append, shifted_of_not_spansLines hfront, hcolon,
      ← Condition.render_add, Nat.zero_add]
  have htext : (fun indent => renderBranch target indent keyword branch) = fun indent =>
      spaces indent ++ (keyword ++ " " ++ branch.condition.render indent ++ ":") ++ "\n" ++
        renderValue target (indent + indentStep) branch.value := by
    have hcolon : (":\n" : String) = ":" ++ "\n" := rfl
    funext indent
    rw [renderBranch, hcolon]
    simp only [String.append_assoc]
  rw [htext]
  exact (moves_line hline).append (moves_renderValue htarget hvalue indentStep)

theorem moves_renderBranches (htarget : StaysOnLine target) {branches : List Branch}
    (hvalues : ∀ branch ∈ branches, branch.value.NamesStayOnLine) :
    Moves fun indent => renderBranches target indent branches := by
  cases branches with
  | nil => exact moves_empty
  | cons first rest =>
      rw [List.forall_mem_cons] at hvalues
      have hfirst : Moves fun indent => renderBranch target indent "if" first :=
        moves_renderBranch htarget (by decide) hvalues.1
      have hrest : ∀ branch ∈ rest, Moves fun indent => renderBranch target indent "elif" branch :=
        fun branch hbranch => moves_renderBranch htarget (by decide) (hvalues.2 branch hbranch)
      exact hfirst.append (Moves.concat hrest)

theorem moves_renderOtherwise (coverage : Coverage) :
    Moves fun indent => renderOtherwise indent coverage := by
  cases coverage with
  | someKeys => exact moves_empty
  | everyKey =>
      have helse : Moves fun indent => spaces indent ++ "else:" ++ "\n" :=
        moves_line fun indent => (shifted_of_not_spansLines (by decide)).symm
      have hfail : Moves fun indent =>
          spaces indent ++ (spaces indentStep ++ "fail(\"Unreachable\")") ++ "\n" :=
        moves_line fun indent => (shifted_of_not_spansLines (by decide)).symm
      have htext : (fun indent => renderOtherwise indent .everyKey) = fun indent =>
          spaces indent ++ "else:" ++ "\n" ++
            (spaces indent ++ (spaces indentStep ++ "fail(\"Unreachable\")") ++ "\n") := by
        have helseEnd : ("else:\n" : String) = "else:" ++ "\n" := rfl
        have hfailEnd : ("fail(\"Unreachable\")\n" : String) =
            "fail(\"Unreachable\")" ++ "\n" := rfl
        funext indent
        rw [renderOtherwise, spaces_add, helseEnd, hfailEnd]
        simp only [String.append_assoc]
      rw [htext]
      exact helse.append hfail

/-- An assignment moves with its indentation. -/
theorem moves_render {assignment : Assignment} (htarget : StaysOnLine assignment.target)
    (hvalues : ∀ value ∈ assignment.choice.values, value.NamesStayOnLine) :
    Moves fun indent => assignment.render indent := by
  obtain ⟨target, choice⟩ := assignment
  cases choice with
  | always value =>
      exact moves_renderValue htarget (hvalues value (List.mem_singleton_self value)) 0
  | byKey branches coverage =>
      exact (moves_renderBranches htarget (List.forall_mem_map.mp hvalues)).append
        (moves_renderOtherwise coverage)

end Assignment

/-- **Indentation is a pure shift.** -/
theorem render_eq_moved :
    (∀ value : Expr, value.NamesStayOnLine →
      ∀ indent, value.render indent = shifted indent (value.render 0)) ∧
    ∀ assignment : Assignment, StaysOnLine assignment.target →
      (∀ value ∈ assignment.choice.values, value.NamesStayOnLine) →
      ∀ indent, assignment.render indent = indented indent (assignment.render 0) := by
  constructor
  · intro value hvalue indent
    rw [← Expr.render_add hvalue, Nat.zero_add]
  · intro assignment htarget hvalues indent
    exact (Assignment.moves_render htarget hvalues).eq_indented indent

/-- A chain of two branches, one of them behind two tests and with a value of several lines. -/
def chainOfFlagSets : Assignment where
  target := "flag_sets"
  choice := .byKey
    [⟨⟨[.ofCpu "k8", .ofKey ⟨"arm\n", "gcc"⟩]⟩, heavyInside.toExpr⟩, ⟨⟨[.ofCpu "x"]⟩, .none⟩]
    .everyKey

theorem render_eq_moved_chainOfFlagSets :
    heavyInside.toExpr.NamesStayOnLine ∧ StaysOnLine chainOfFlagSets.target ∧
      (∀ value ∈ chainOfFlagSets.choice.values, value.NamesStayOnLine) ∧
      heavyInside.toExpr.render 3 = shifted 3 (heavyInside.toExpr.render 0) ∧
      chainOfFlagSets.render 3 = indented 3 (chainOfFlagSets.render 0) := by
  have htarget : StaysOnLine chainOfFlagSets.target := by decide
  have hvalue : heavyInside.toExpr.NamesStayOnLine := heavyInside.loaded_toExpr.namesStayOnLine
  have hvalues : ∀ value ∈ chainOfFlagSets.choice.values, value.NamesStayOnLine := by
    intro value hmem
    rcases List.mem_pair.mp hmem with rfl | rfl
    · exact hvalue
    · exact .none
  exact ⟨hvalue, htarget, hvalues, render_eq_moved.1 _ hvalue 3,
    render_eq_moved.2 _ htarget hvalues 3⟩

end ToolchainMerge
