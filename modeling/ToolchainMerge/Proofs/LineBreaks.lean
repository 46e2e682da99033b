import ToolchainMerge.Proofs.Identifier
import ToolchainMerge.Proofs.Literal
import ToolchainMerge.Proofs.Names

/-!
# Where expressions break

`Expr.render` decides from the inside out: it renders the parts of a list or call, looks for line
feeds in what came out, and renders them again one step deeper if it has to.  The rule behind it
needs no text but that of lists of scalars.  `Expr.fits` states the rule by recursion on the
expression, `Expr.oneLine` is the text of an expression that fits, and `Expr.laidOut` is the layout
that follows from the two.

## Strategy

What `render` looks for in a text is what `fits` says of the expression, provided that no name
brings a line feed along.

* A literal never spans lines, because it escapes line feeds; so nothing on one line does
  (`not_spansLines_oneLine`).
* A laid out expression spans lines exactly if it does not fit (`spansLines_laidOut_iff`), since a
  broken list or call has a line feed behind its opening bracket.
* Hence the two ways to decide agree at every list and call whose parts are rendered as they are
  laid out, and `render_eq_laidOut` is an induction over the expression.

`layout_decided_by_fits` is the main statement.
-/

namespace ToolchainMerge

/-! ## Texts that span lines -/

namespace Text

theorem spansLines_append {left right : String} :
    SpansLines (left ++ right) ↔ SpansLines left ∨ SpansLines right := by
  simp [SpansLines]

theorem spansLines_joined {separator : String} (hseparator : ¬ SpansLines separator)
    {texts : List String} :
    SpansLines (joined separator texts) ↔ ∃ text ∈ texts, SpansLines text := by
  induction texts with
  | nil => simp [joined, SpansLines]
  | cons text texts ih =>
      cases texts with
      | nil => simp [joined]
      | cons next texts =>
          rw [joined, spansLines_append, spansLines_append, ih]
          simp [hseparator]

/-- A line feed stands behind every line but the last. -/
theorem joined_lineFeed_concat (lines : List String) (last : String) :
    joined "\n" (lines ++ [last]) = concat (lines.map (· ++ "\n")) ++ last := by
  induction lines with
  | nil => simp [joined, concat]
  | cons line lines ih =>
      obtain ⟨next, others, hnext⟩ : ∃ next others, lines ++ [last] = next :: others :=
        List.exists_cons_of_ne_nil (by simp)
      rw [List.cons_append, hnext, joined, ← hnext, ih, List.map_cons, concat]
      simp only [String.append_assoc]

end Text

open Text

namespace Starlark

theorem not_spansLines_quote (text : String) : ¬ SpansLines (quote text) :=
  not_mem_quote (by decide) text

/-- A name that does not reach over the end of a line. -/
def StaysOnLine (name : String) : Prop :=
  ¬ SpansLines name

instance (name : String) : Decidable (StaysOnLine name) :=
  inferInstanceAs (Decidable (¬ SpansLines name))

namespace Expr

/-- An expression whose names and keywords contain no line feed. -/
abbrev NamesStayOnLine (value : Expr) : Prop :=
  value.UsesOnly StaysOnLine StaysOnLine

theorem staysOnLine_identifierStem (name : String) : StaysOnLine (identifierStem name) := by
  intro hspans
  exact absurd ((isStem_identifierStem name).lowerNameChar_of_mem '\n' hspans) (by decide)

/-- What is written for a toolchain has names that are fixed, all of them on one line. -/
theorem Loaded.namesStayOnLine {value : Expr} (hvalue : value.Loaded) :
    value.NamesStayOnLine := by
  have hconstructors : ∀ name ∈ Rule.constructors, StaysOnLine name := by decide +kernel
  have hkeywords : ∀ keyword ∈ Rule.keywords, StaysOnLine keyword := by decide +kernel
  refine hvalue.mono hconstructors ?_ hkeywords
  rintro _ ⟨action, _, rfl⟩ hspans
  rcases spansLines_append.mp hspans with htable | hstem
  · exact absurd htable (by decide)
  · exact staysOnLine_identifierStem action hstem

/-! ## The rule -/

mutual

/-- The text of an expression on one line. -/
def oneLine : Expr → String
  | .str value => quote value
  | .bool true => "True"
  | .bool false => "False"
  | .none => "None"
  | .ident name => name
  | .list items => "[" ++ joined ", " (oneLineItems items) ++ "]"
  | .call name args => name ++ "(" ++ joined ", " (oneLineArgs args) ++ ")"

/-- The items of a list, each on one line. -/
def oneLineItems : List Expr → List String
  | [] => []
  | item :: items => oneLine item :: oneLineItems items

/-- The arguments of a call, each on one line. -/
def oneLineArgs : List (String × Expr) → List String
  | [] => []
  | (keyword, value) :: args => (keyword ++ " = " ++ oneLine value) :: oneLineArgs args

end

mutual

/-- Whether an expression stays on one line.  Scalars and the empty list do.  Another list of
scalars does up to a width of 80 characters, brackets included; a list with a composite item
only if that item is alone and fits.  A call does if its arguments weigh two at most and fit. -/
def fits : Expr → Bool
  | .str _ | .bool _ | .none | .ident _ => true
  | .list items =>
      if items.isEmpty then true
      else if items.all isScalar then decide ((oneLine (.list items)).length ≤ 80)
      else decide (items.length = 1) && itemsFit items
  | .call _ args => decide (totalWeight args ≤ 2) && argsFit args

/-- Whether all items stay on one line. -/
def itemsFit : List Expr → Bool
  | [] => true
  | item :: items => fits item && itemsFit items

/-- Whether the values of all arguments stay on one line. -/
def argsFit : List (String × Expr) → Bool
  | [] => true
  | (_, value) :: args => fits value && argsFit args

end

/-- Parts on lines of their own, four columns deeper than the closing bracket and each with a
comma behind it. -/
def stacked (opening closing : String) (indent : Nat) (parts : List String) : String :=
  joined "\n" (opening :: (parts.map (fun part => spaces (indent + 4) ++ part ++ ",") ++
    [spaces indent ++ closing]))

mutual

/-- The layout by the rule.  At every depth it depends on the expression alone whether a list or
a call breaks; the indentation only says how far its lines are moved. -/
def laidOut (indent : Nat) : Expr → String
  | .list items =>
      if fits (.list items) then oneLine (.list items)
      else stacked "[" "]" indent (laidOutItems (indent + 4) items)
  | .call name args =>
      if fits (.call name args) then oneLine (.call name args)
      else stacked (name ++ "(") ")" indent (laidOutArgs (indent + 4) args)
  | scalar => oneLine scalar

/-- The items of a list, each by the rule. -/
def laidOutItems (indent : Nat) : List Expr → List String
  | [] => []
  | item :: items => laidOut indent item :: laidOutItems indent items

/-- The arguments of a call, each by the rule. -/
def laidOutArgs (indent : Nat) : List (String × Expr) → List String
  | [] => []
  | (keyword, value) :: args =>
      (keyword ++ " = " ++ laidOut indent value) :: laidOutArgs indent args

end

/-! ## Parts element by element -/

theorem renderItems_eq_map (indent : Nat) (items : List Expr) :
    renderItems indent items = items.map (render indent) := by
  induction items with
  | nil => rfl
  | cons item items ih => rw [renderItems, ih, List.map_cons]

theorem renderArgs_eq_map (indent : Nat) (args : List (String × Expr)) :
    renderArgs indent args =
      args.map fun argument => argument.1 ++ " = " ++ render indent argument.2 := by
  induction args with
  | nil => rfl
  | cons argument args ih => rw [renderArgs, ih, List.map_cons]

theorem oneLineItems_eq_map (items : List Expr) : oneLineItems items = items.map oneLine := by
  induction items with
  | nil => rfl
  | cons item items ih => rw [oneLineItems, ih, List.map_cons]

theorem oneLineArgs_eq_map (args : List (String × Expr)) :
    oneLineArgs args = args.map fun argument => argument.1 ++ " = " ++ oneLine argument.2 := by
  induction args with
  | nil => rfl
  | cons argument args ih => rw [oneLineArgs, ih, List.map_cons]

theorem laidOutItems_eq_map (indent : Nat) (items : List Expr) :
    laidOutItems indent items = items.map (laidOut indent) := by
  induction items with
  | nil => rfl
  | cons item items ih => rw [laidOutItems, ih, List.map_cons]

theorem laidOutArgs_eq_map (indent : Nat) (args : List (String × Expr)) :
    laidOutArgs indent args =
      args.map fun argument => argument.1 ++ " = " ++ laidOut indent argument.2 := by
  induction args with
  | nil => rfl
  | cons argument args ih => rw [laidOutArgs, ih, List.map_cons]

theorem itemsFit_iff {items : List Expr} :
    itemsFit items = true ↔ ∀ item ∈ items, item.fits = true := by
  induction items with
  | nil => simp [itemsFit]
  | cons item items ih => rw [itemsFit, Bool.and_eq_true, ih, List.forall_mem_cons]

theorem argsFit_iff {args : List (String × Expr)} :
    argsFit args = true ↔ ∀ argument ∈ args, argument.2.fits = true := by
  induction args with
  | nil => simp [argsFit]
  | cons argument args ih => rw [argsFit, Bool.and_eq_true, ih, List.forall_mem_cons]

/-! ## Rows of parts -/

theorem spansLines_bracketed {opening closing : String} (hopening : ¬ SpansLines opening)
    (hclosing : ¬ SpansLines closing) {parts : List String} :
    SpansLines (opening ++ joined ", " parts ++ closing) ↔ ∃ part ∈ parts, SpansLines part := by
  rw [spansLines_append, spansLines_append, spansLines_joined (by decide)]
  simp only [hopening, hclosing, false_or, or_false]

theorem spansLines_argument {keyword text : String} (hkeyword : StaysOnLine keyword) :
    SpansLines (keyword ++ " = " ++ text) ↔ SpansLines text := by
  have hequals : ¬ SpansLines " = " := by decide
  rw [StaysOnLine] at hkeyword
  rw [spansLines_append, spansLines_append]
  simp only [hkeyword, hequals, false_or]

theorem not_spansLines_opening {name : String} (hname : StaysOnLine name) :
    ¬ SpansLines (name ++ "(") := by
  have hbracket : ¬ SpansLines "(" := by decide
  rw [spansLines_append]
  exact not_or.mpr ⟨hname, hbracket⟩

/-- **What is on one line stays there.** -/
theorem not_spansLines_oneLine {value : Expr} (hvalue : value.NamesStayOnLine) :
    ¬ SpansLines value.oneLine := by
  induction hvalue with
  | str text => exact not_spansLines_quote text
  | bool value => cases value <;> decide
  | none => decide
  | ident hname => exact hname
  | list _ ih =>
      rw [oneLine, oneLineItems_eq_map, spansLines_bracketed (by decide) (by decide)]
      rintro ⟨part, hpart, hspans⟩
      obtain ⟨item, hitem, rfl⟩ := List.mem_map.mp hpart
      exact ih item hitem hspans
  | call hname hkeywords _ ih =>
      rw [oneLine, oneLineArgs_eq_map,
        spansLines_bracketed (not_spansLines_opening hname) (by decide)]
      rintro ⟨part, hpart, hspans⟩
      obtain ⟨argument, hargument, rfl⟩ := List.mem_map.mp hpart
      rw [spansLines_argument (hkeywords argument hargument)] at hspans
      exact ih argument hargument hspans

theorem broken_eq_stacked (opening closing : String) (indent : Nat) (parts : List String) :
    broken opening closing indent parts = stacked opening closing indent parts := by
  have hlines : (parts.map fun part => spaces (indent + 4) ++ part ++ ",").map (· ++ "\n") =
      parts.map fun part => spaces (indent + indentStep) ++ part ++ ",\n" := by
    rw [List.map_map]
    refine List.map_congr_left fun part _ => ?_
    simp [indentStep, String.append_assoc]
  rw [broken, stacked, ← List.cons_append, joined_lineFeed_concat, List.map_cons, concat, hlines]
  simp only [String.append_assoc]

theorem spansLines_stacked (opening closing : String) (indent : Nat) (parts : List String) :
    SpansLines (stacked opening closing indent parts) := by
  have hlineFeed : SpansLines "\n" := by decide
  rw [← broken_eq_stacked, broken]
  simp only [spansLines_append, hlineFeed, or_true, true_or]

/-! ## What fits and what breaks -/

theorem fits_of_isScalar {value : Expr} (hscalar : value.isScalar = true) :
    value.fits = true := by
  cases value with
  | list items => cases hscalar
  | call name args => cases hscalar
  | _ => rfl

theorem itemsFit_of_all_isScalar {items : List Expr} (hscalars : items.all isScalar = true) :
    itemsFit items = true :=
  itemsFit_iff.mpr fun item hitem => fits_of_isScalar (List.all_eq_true.mp hscalars item hitem)

theorem laidOut_of_fits {value : Expr} (hfits : value.fits = true) (indent : Nat) :
    value.laidOut indent = value.oneLine := by
  cases value with
  | list items => rw [laidOut, if_pos hfits]
  | call name args => rw [laidOut, if_pos hfits]
  | _ => rfl

theorem laidOutItems_of_fit {items : List Expr} (hfit : itemsFit items = true) (indent : Nat) :
    laidOutItems indent items = oneLineItems items := by
  rw [laidOutItems_eq_map, oneLineItems_eq_map]
  refine List.map_congr_left fun item hitem => ?_
  exact laidOut_of_fits (itemsFit_iff.mp hfit item hitem) indent

theorem laidOutArgs_of_fit {args : List (String × Expr)} (hfit : argsFit args = true)
    (indent : Nat) : laidOutArgs indent args = oneLineArgs args := by
  rw [laidOutArgs_eq_map, oneLineArgs_eq_map]
  refine List.map_congr_left fun argument hargument => ?_
  rw [laidOut_of_fits (argsFit_iff.mp hfit argument hargument)]

/-- **A line feed tells that an expression does not fit**, at every indentation. -/
theorem spansLines_laidOut_iff {value : Expr} (hvalue : value.NamesStayOnLine) (indent : Nat) :
    SpansLines (value.laidOut indent) ↔ ¬ value.fits = true := by
  by_cases hfits : value.fits = true
  · have hstays := not_spansLines_oneLine hvalue
    rw [laidOut_of_fits hfits]
    exact ⟨fun hspans => absurd hspans hstays, fun hbreaks => absurd hfits hbreaks⟩
  · refine ⟨fun _ => hfits, fun _ => ?_⟩
    cases value with
    | list items =>
        rw [laidOut, if_neg hfits]
        exact spansLines_stacked ..
    | call name args =>
        rw [laidOut, if_neg hfits]
        exact spansLines_stacked ..
    | _ => exact absurd rfl hfits

/-- Texts of which each spans lines unless its element fits: some of them does unless all
elements fit. -/
theorem exists_spansLines_map_iff {α : Type} {elements : List α} {text : α → String}
    {fit : α → Bool}
    (hiff : ∀ element ∈ elements, SpansLines (text element) ↔ ¬ fit element = true) :
    (∃ part ∈ elements.map text, SpansLines part) ↔
      ¬ ∀ element ∈ elements, fit element = true := by
  constructor
  · rintro ⟨part, hpart, hspans⟩ hfit
    obtain ⟨element, helement, rfl⟩ := List.mem_map.mp hpart
    exact (hiff element helement).mp hspans (hfit element helement)
  · intro hnot
    push Not at hnot
    obtain ⟨element, helement, hbreaks⟩ := hnot
    exact ⟨_, List.mem_map_of_mem helement, (hiff element helement).mpr hbreaks⟩

theorem exists_spansLines_laidOutItems_iff {items : List Expr}
    (hitems : ∀ item ∈ items, item.NamesStayOnLine) (indent : Nat) :
    (∃ part ∈ laidOutItems indent items, SpansLines part) ↔ ¬ itemsFit items = true := by
  rw [laidOutItems_eq_map, itemsFit_iff]
  exact exists_spansLines_map_iff fun item hitem => spansLines_laidOut_iff (hitems item hitem) indent

theorem exists_spansLines_laidOutArgs_iff {args : List (String × Expr)}
    (hkeywords : ∀ argument ∈ args, StaysOnLine argument.1)
    (hvalues : ∀ argument ∈ args, argument.2.NamesStayOnLine) (indent : Nat) :
    (∃ part ∈ laidOutArgs indent args, SpansLines part) ↔ ¬ argsFit args = true := by
  rw [laidOutArgs_eq_map, argsFit_iff]
  refine exists_spansLines_map_iff fun argument hargument => ?_
  rw [spansLines_argument (hkeywords argument hargument)]
  exact spansLines_laidOut_iff (hvalues argument hargument) indent

/-! ## Rendering follows the rule -/

/-- The empty list makes no exception among the lists of scalars: it is narrow enough. -/
theorem fits_list_of_scalars {items : List Expr} (hscalars : items.all isScalar = true) :
    fits (.list items) = decide ((oneLine (.list items)).length ≤ inlineListWidth) := by
  cases items with
  | nil => decide
  | cons item items =>
      rw [fits, if_neg (by simp), if_pos hscalars]
      rfl

theorem fits_list_of_composite {items : List Expr} (hcomposite : ¬ items.all isScalar = true) :
    fits (.list items) = (decide (items.length = 1) && itemsFit items) := by
  cases items with
  | nil => exact absurd rfl hcomposite
  | cons item items => rw [fits, if_neg (by simp), if_neg hcomposite]

theorem render_list_eq_laidOut {items : List Expr} (hitems : ∀ item ∈ items, item.NamesStayOnLine)
    (hparts : ∀ indent, renderItems indent items = laidOutItems indent items) (indent : Nat) :
    render indent (.list items) = laidOut indent (.list items) := by
  rw [render, laidOut, hparts, hparts, broken_eq_stacked, indentStep]
  dsimp only
  by_cases hscalars : items.all isScalar = true
  · -- scalars fit, so only the width of the row counts
    have hrow : laidOutItems indent items = oneLineItems items :=
      laidOutItems_of_fit (itemsFit_of_all_isScalar hscalars) indent
    rw [if_pos hscalars, fits_list_of_scalars hscalars, hrow, oneLine]
    by_cases hwidth : ("[" ++ joined ", " (oneLineItems items) ++ "]").length ≤ inlineListWidth
    · rw [if_pos hwidth, if_pos (decide_eq_true hwidth)]
    · rw [if_neg hwidth, if_neg (by simpa using hwidth)]
  · rw [if_neg hscalars, fits_list_of_composite hscalars]
    have hspans : SpansLines ("[" ++ joined ", " (laidOutItems indent items) ++ "]") ↔
        ¬ itemsFit items = true :=
      (spansLines_bracketed (by decide) (by decide)).trans
        (exists_spansLines_laidOutItems_iff hitems indent)
    by_cases hone : items.length = 1
    · rw [if_pos hone]
      by_cases hfit : itemsFit items = true
      · rw [if_neg (fun hbreaks => hspans.mp hbreaks hfit), if_pos (by simp [hone, hfit]),
          laidOutItems_of_fit hfit, oneLine]
      · rw [if_pos (hspans.mpr hfit), if_neg (by simp [hfit])]
    · rw [if_neg hone, if_neg (by simp [hone])]

theorem render_call_eq_laidOut {name : String} {args : List (String × Expr)}
    (hkeywords : ∀ argument ∈ args, StaysOnLine argument.1)
    (hvalues : ∀ argument ∈ args, argument.2.NamesStayOnLine)
    (hparts : ∀ indent, renderArgs indent args = laidOutArgs indent args) (indent : Nat) :
    render indent (.call name args) = laidOut indent (.call name args) := by
  rw [render, laidOut, hparts, hparts, broken_eq_stacked, indentStep]
  dsimp only
  have hspans : ((laidOutArgs indent args).any fun part => SpansLines part) = true ↔
      ¬ argsFit args = true := by
    rw [List.any_eq_true, ← exists_spansLines_laidOutArgs_iff hkeywords hvalues indent]
    simp only [decide_eq_true_eq]
  by_cases hweight : totalWeight args ≤ 2
  · rw [if_pos hweight]
    by_cases hfit : argsFit args = true
    · rw [if_neg (fun hbreaks => hspans.mp hbreaks hfit), if_pos (by simp [fits, hweight, hfit]),
        laidOutArgs_of_fit hfit, oneLine]
    · rw [if_pos (hspans.mpr hfit), if_neg (by simp [fits, hfit])]
  · rw [if_neg hweight, if_neg (by simp [fits, hweight])]

/-- **Expressions are rendered as they are laid out.** -/
theorem render_eq_laidOut {value : Expr} (hvalue : value.NamesStayOnLine) (indent : Nat) :
    value.render indent = value.laidOut indent := by
  induction hvalue generalizing indent with
  | str text => rfl
  | bool value => cases value <;> rfl
  | none => rfl
  | ident hname => rfl
  | list hitems ih =>
      refine render_list_eq_laidOut hitems (fun inner => ?_) indent
      rw [renderItems_eq_map, laidOutItems_eq_map]
      exact List.map_congr_left fun item hitem => ih item hitem inner
  | call hname hkeywords hvalues ih =>
      refine render_call_eq_laidOut hkeywords hvalues (fun inner => ?_) indent
      rw [renderArgs_eq_map, laidOutArgs_eq_map]
      refine List.map_congr_left fun argument hargument => ?_
      rw [ih argument hargument inner]

/-- **Layout is a matter of structure.**  An expression is rendered on one line if it fits and
broken otherwise, its parts by the same rule one step deeper; so there is a line feed in the text
exactly if the expression does not fit, at whatever indentation it stands. -/
theorem layout_decided_by_fits {value : Expr} (hvalue : value.NamesStayOnLine) (indent : Nat) :
    value.render indent = value.laidOut indent ∧
      (SpansLines (value.render indent) ↔ value.fits = false) := by
  have hrender := render_eq_laidOut hvalue indent
  refine ⟨hrender, ?_⟩
  rw [hrender, spansLines_laidOut_iff hvalue, Bool.not_eq_true]

end Expr

/-- A flag set with one argument, light enough for one line but for what is nested in it. -/
def heavyInside : FlagSet where
  actions := []
  withFeatures := [⟨["line\nfeed"], ["other"]⟩]
  groups := []

theorem layout_decided_by_fits_heavyInside :
    heavyInside.toExpr.NamesStayOnLine ∧
      heavyInside.toExpr.render 2 = heavyInside.toExpr.laidOut 2 ∧
        (SpansLines (heavyInside.toExpr.render 2) ↔ heavyInside.toExpr.fits = false) :=
  ⟨heavyInside.loaded_toExpr.namesStayOnLine,
    Expr.layout_decided_by_fits heavyInside.loaded_toExpr.namesStayOnLine 2⟩

example : heavyInside.toExpr.laidOut 2 = joined "\n"
    ["flag_set(",
      "      with_features = [",
      "          with_feature_set(",
      "              features = [\"line\\nfeed\"],",
      "              not_features = [\"other\"],",
      "          ),",
      "      ],",
      "  )"] := by
  decide +kernel

end Starlark

end ToolchainMerge
