import ToolchainMerge.Proofs.Literal
import ToolchainMerge.Proofs.Names
import ToolchainMerge.Proofs.Reader
import ToolchainMerge.Starlark.Layout

/-!
# Rendered expressions are read back

An expression may be laid out on one line or over several, and so may every part of it.  The
scanner does not see the difference apart from commas, and the reader does not see those.  So
the choice between layouts need not be followed: whichever is taken, the text of the whole is
read back if the texts of the parts are (`reads_list`, `reads_call`).

`reads_render` is the main statement, an induction over the expression.  `Expr.ofText?` reads a
text that holds an expression and nothing else, and `Expr.ofText?_render` concludes that rendered
expressions are decodable.
-/

namespace ToolchainMerge.Starlark

open Text Scan

/-! ## Rows of parts -/

theorem balanced_comma : Balanced [.mark ','] := rfl

theorem balanced_commaTerminated {parts : List (List Token)}
    (hparts : ∀ tokens ∈ parts, Balanced tokens) : Balanced (commaTerminated parts) := by
  induction parts with
  | nil => rfl
  | cons tokens parts ih =>
      rw [List.forall_mem_cons] at hparts
      exact (hparts.1.append balanced_comma).append (ih hparts.2)

theorem balanced_separatedBy {between : List Token} (hbetween : Balanced between)
    {parts : List (List Token)} (hparts : ∀ tokens ∈ parts, Balanced tokens) :
    Balanced (separatedBy between parts) := by
  induction parts with
  | nil => rfl
  | cons tokens parts ih =>
      rw [List.forall_mem_cons] at hparts
      cases parts with
      | nil => exact hparts.1
      | cons next parts => exact (hparts.1.append hbetween).append (ih hparts.2)

theorem isOpen_append {tokens added : List Token} (hopen : isOpen tokens = true)
    (hadded : Balanced added) : isOpen (tokens ++ added) = true := by
  unfold isOpen Balanced at *
  rw [decide_eq_true_iff] at *
  rw [List.countP_append, List.countP_append]
  omega

/-- The tokens that the text between two brackets adds. -/
structure Fills (closing : Char) (inner : List Char) (row : List Token) : Prop where
  balanced : Balanced row
  reads : ∀ (lines : List Line) (indent : Nat) (tokens : List Token), isOpen tokens = true →
    ∀ rest, (within lines indent tokens).read (inner ++ closing :: rest) =
      (within lines indent (tokens ++ row)).read (closing :: rest)

/-- Each part adds its own tokens. -/
abbrev YieldsParts (parts : List String) (added : List (List Token)) : Prop :=
  List.Forall₂ (fun part tokens => Yields part.toList tokens) parts added

theorem YieldsParts.balanced {parts : List String} {added : List (List Token)}
    (hparts : YieldsParts parts added) : ∀ tokens ∈ added, Balanced tokens := by
  induction hparts with
  | nil => exact List.forall_mem_nil _
  | cons hpart _ ih => exact List.forall_mem_cons.mpr ⟨hpart.balanced, ih⟩

theorem read_part {part : List Char} {added : List Token} (hpart : Yields part added)
    {tokens : List Token} (hopen : isOpen tokens = true) (lines : List Line) (indent : Nat)
    (rest : List Char) :
    (within lines indent tokens).read (part ++ ',' :: rest) =
      (within lines indent (tokens ++ (added ++ [Token.mark ',']))).read rest := by
  have hle : tokens.countP Token.isClosing ≤ tokens.countP Token.isOpening :=
    Nat.le_of_lt (of_decide_eq_true hopen)
  rw [hpart.reads lines indent tokens hle ',' (by decide), read_cons (step_mark (by decide)),
    List.append_assoc]

/-- The tokens that a separator between brackets adds. -/
structure StandsBetween (chars : List Char) (added : List Token) : Prop where
  delimiter : ∃ char ∈ delimiters, ∃ others, chars = char :: others
  balanced : Balanced added
  reads : ∀ (lines : List Line) (indent : Nat) (tokens : List Token), isOpen tokens = true →
    ∀ rest, (within lines indent tokens).read (chars ++ rest) =
      (within lines indent (tokens ++ added)).read rest

theorem standsBetween_comma : StandsBetween ", ".toList [.mark ','] := by
  refine ⟨⟨',', by decide, [' '], rfl⟩, rfl, fun lines indent tokens _ rest => ?_⟩
  have hchars : ", ".toList = [',', ' '] := rfl
  rw [hchars, List.cons_append, List.cons_append, read_cons (step_mark (by decide)),
    read_cons step_space]
  rfl

/-- Parts with a separator between them. -/
theorem fills_joined {closing : Char} (hclosing : closing ∈ delimiters) {separator : String}
    {between : List Token} (hseparator : StandsBetween separator.toList between)
    {parts : List String} {added : List (List Token)} (hparts : YieldsParts parts added) :
    Fills closing (joined separator parts).toList (separatedBy between added) := by
  refine ⟨balanced_separatedBy hseparator.balanced hparts.balanced,
    fun lines indent tokens hopen rest => ?_⟩
  -- the bracket stays open over every part, so the row may grow behind any tokens
  induction hparts generalizing tokens with
  | nil => rw [separatedBy, List.append_nil]; rfl
  | cons hpart hothers ih =>
      have hle : tokens.countP Token.isClosing ≤ tokens.countP Token.isOpening :=
        Nat.le_of_lt (of_decide_eq_true hopen)
      cases hothers with
      | nil => exact hpart.reads lines indent tokens hle closing hclosing rest
      | cons hnext hothers =>
          obtain ⟨char, hchar, others, hchars⟩ := hseparator.delimiter
          have hopenPart := isOpen_append hopen hpart.balanced
          have hopenNext := isOpen_append hopenPart hseparator.balanced
          rw [joined, String.toList_append, String.toList_append, List.append_assoc,
            List.append_assoc, hchars, List.cons_append,
            hpart.reads lines indent tokens hle char hchar, ← List.cons_append, ← hchars,
            hseparator.reads _ _ _ hopenPart, ih _ hopenNext, separatedBy]
          simp only [List.append_assoc]

theorem toList_spaces (width : Nat) : (spaces width).toList = List.replicate width ' ' :=
  String.toList_ofList

/-- Parts on lines of their own. -/
theorem fills_concat {closing : Char} {parts : List String} {added : List (List Token)}
    (hparts : YieldsParts parts added) (indent outer : Nat) :
    Fills closing
      ('\n' :: ((concat (parts.map fun part => spaces indent ++ part ++ ",\n")).toList ++
        List.replicate outer ' '))
      (commaTerminated added) := by
  refine ⟨balanced_commaTerminated hparts.balanced, fun lines lineIndent tokens hopen rest => ?_⟩
  rw [List.cons_append, read_cons (step_lineFeed_of_open hopen), List.append_assoc]
  induction hparts generalizing tokens with
  | nil =>
      rw [commaTerminated, List.flatMap_nil, List.append_nil]
      exact read_spaces outer _
  | @cons part added parts others hpart _ ih =>
      have hstill := isOpen_append hopen (hpart.balanced.append balanced_comma)
      have hseparator : ",\n".toList = [',', '\n'] := rfl
      rw [List.map_cons, concat, String.toList_append, String.toList_append, String.toList_append,
        hseparator, toList_spaces, List.append_assoc, List.append_assoc,
        List.append_assoc, read_spaces, List.cons_append, read_part hpart hopen,
        List.cons_append, List.nil_append, read_cons (step_lineFeed_of_open hstill), ih _ hstill,
        commaTerminated, commaTerminated, List.flatMap_cons, List.append_assoc]

/-! ## Brackets -/

theorem yields_nil : Yields [] [] :=
  ⟨rfl, fun lines indent tokens _ char _ rest => by rw [List.append_nil, List.nil_append]⟩

/-- A row between brackets, behind the name of a function or behind nothing. -/
theorem yields_bracketed {head inner : List Char} {headTokens row : List Token}
    {opening closing : Char} (hhead : Yields head headTokens)
    (hbrackets : (opening, closing) ∈ [('(', ')'), ('[', ']')]) (hinner : Fills closing inner row) :
    Yields (head ++ opening :: (inner ++ [closing]))
      (headTokens ++ Token.mark opening :: (row ++ [Token.mark closing])) := by
  have hmarks : opening ∈ marks ∧ closing ∈ marks ∧ opening ∈ delimiters ∧
      Token.isOpening (.mark opening) = true ∧ Token.isClosing (.mark opening) = false ∧
      Token.isOpening (.mark closing) = false ∧ Token.isClosing (.mark closing) = true := by
    simp only [List.mem_cons, List.not_mem_nil, or_false, Prod.mk.injEq] at hbrackets
    rcases hbrackets with ⟨rfl, rfl⟩ | ⟨rfl, rfl⟩ <;> decide
  obtain ⟨hopening, hclosing, hdelimiter, hopens, hopens', hcloses, hcloses'⟩ := hmarks
  have hheadBalanced := hhead.balanced
  have hrowBalanced := hinner.balanced
  refine ⟨?_, fun lines indent tokens hle char hchar rest => ?_⟩
  · unfold Balanced at *
    simp only [List.countP_append, List.countP_cons, List.countP_nil, hopens, hopens', hcloses,
      hcloses', if_true, Bool.false_eq_true, if_false]
    omega
  · -- what is inside is read with the bracket open, where line feeds are spaces
    have hopen : isOpen (tokens ++ headTokens ++ [Token.mark opening]) = true := by
      unfold isOpen Balanced at *
      rw [decide_eq_true_iff]
      simp only [List.countP_append, List.countP_cons, List.countP_nil, hopens, hopens', if_true,
        Bool.false_eq_true, if_false]
      omega
    have hend : inner ++ [closing] ++ char :: rest = inner ++ closing :: char :: rest := by simp
    rw [List.append_assoc, List.cons_append, hhead.reads lines indent tokens hle _ hdelimiter,
      read_cons (step_mark hopening), hend, hinner.reads _ _ _ hopen,
      read_cons (step_mark hclosing)]
    simp only [List.append_assoc, List.cons_append, List.nil_append]

/-! ## Expressions -/

/-- A text that is scanned and read as an expression. -/
def Reads (text : String) (value : Expr) : Prop :=
  ∃ tokens, Yields text.toList tokens ∧ Parses tokens value

/-- A text that is scanned and read as an argument. -/
def ReadsArgument (text : String) (argument : String × Expr) : Prop :=
  ∃ tokens, Yields text.toList tokens ∧ ParsesArgument tokens argument

theorem reads_str (text : String) : Reads (quote text) (.str text) :=
  ⟨_, yields_quote text, parses_literal text⟩

theorem reads_named (name : String) (hpath : isPath name.toList = true) :
    Reads name (named name) :=
  ⟨_, yields_name hpath, parses_name name⟩

theorem exists_tokens {β : Type} {parse : List Token → β → Prop} {parts : List String}
    {elements : List β} (hparts : List.Forall₂
      (fun part element => ∃ tokens, Yields part.toList tokens ∧ parse tokens element)
      parts elements) :
    ∃ added, YieldsParts parts added ∧ List.Forall₂ parse added elements := by
  induction hparts with
  | nil => exact ⟨[], .nil, .nil⟩
  | cons hpart _ ih =>
      obtain ⟨tokens, hyields, hparse⟩ := hpart
      obtain ⟨added, hadded, hparses⟩ := ih
      exact ⟨tokens :: added, .cons hyields hadded, .cons hparse hparses⟩

theorem readsArgument {keyword text : String} {value : Expr}
    (hkeyword : isIdentifier keyword.toList = true) (hvalue : Reads text value) :
    ReadsArgument (keyword ++ " = " ++ text) (keyword, value) := by
  obtain ⟨tokens, hyields, hparses⟩ := hvalue
  have hname := yields_name (isPath_of_isIdentifier hkeyword)
  have htext : (keyword ++ " = " ++ text).toList =
      keyword.toList ++ [' ', '=', ' '] ++ text.toList := by
    simp
  refine ⟨_, ?_, hkeyword, tokens, rfl, hparses⟩
  rw [htext]
  exact hname.join joins_equal hyields

/-- **Lists.**  A list is read in either layout if its items are. -/
theorem reads_list {parts : List String} {items : List Expr}
    (hparts : List.Forall₂ Reads parts items) :
    Reads ("[" ++ joined ", " parts ++ "]") (.list items) ∧
      ∀ indent, Reads (Expr.broken "[" "]" indent parts) (.list items) := by
  obtain ⟨added, hyields, hparses⟩ := exists_tokens hparts
  constructor
  · have htext : ("[" ++ joined ", " parts ++ "]").toList =
        '[' :: ((joined ", " parts).toList ++ [']']) := by
      simp
    refine ⟨_, ?_, parses_list hparses (Or.inl rfl)⟩
    rw [htext]
    exact yields_bracketed yields_nil (by decide)
      (fills_joined (by decide) standsBetween_comma hyields)
  · intro indent
    have htext : (Expr.broken "[" "]" indent parts).toList =
        '[' :: ('\n' :: ((concat (parts.map fun part =>
          spaces (indent + indentStep) ++ part ++ ",\n")).toList ++
            List.replicate indent ' ') ++ [']']) := by
      simp [Expr.broken, toList_spaces]
    refine ⟨_, ?_, parses_list hparses (Or.inr rfl)⟩
    rw [htext]
    exact yields_bracketed yields_nil (by decide) (fills_concat hyields _ _)

/-- **Calls.**  A call is read in either layout if its arguments are. -/
theorem reads_call {function : String} (hpath : isPath function.toList = true)
    {parts : List String} {args : List (String × Expr)}
    (hparts : List.Forall₂ ReadsArgument parts args) :
    Reads (function ++ "(" ++ joined ", " parts ++ ")") (.call function args) ∧
      ∀ indent, Reads (Expr.broken (function ++ "(") ")" indent parts) (.call function args) := by
  obtain ⟨added, hyields, hparses⟩ := exists_tokens hparts
  constructor
  · have htext : (function ++ "(" ++ joined ", " parts ++ ")").toList =
        function.toList ++ '(' :: ((joined ", " parts).toList ++ [')']) := by
      simp
    refine ⟨_, ?_, parses_call function hparses (Or.inl rfl)⟩
    rw [htext]
    exact yields_bracketed (yields_name hpath) (by decide)
      (fills_joined (by decide) standsBetween_comma hyields)
  · intro indent
    have htext : (Expr.broken (function ++ "(") ")" indent parts).toList =
        function.toList ++ '(' :: ('\n' :: ((concat (parts.map fun part =>
          spaces (indent + indentStep) ++ part ++ ",\n")).toList ++
            List.replicate indent ' ') ++ [')']) := by
      simp [Expr.broken, toList_spaces]
    refine ⟨_, ?_, parses_call function hparses (Or.inr rfl)⟩
    rw [htext]
    exact yields_bracketed (yields_name hpath) (by decide) (fills_concat hyields _ _)

/-! ## Rendering -/

/-- The names that are read back as names: paths other than the names of constants. -/
def IsPlainName (name : String) : Prop :=
  isPath name.toList = true ∧ name ∉ ["True", "False", "None"]

/-- The keywords that are read back. -/
def IsKeyword (keyword : String) : Prop :=
  isIdentifier keyword.toList = true

theorem named_of_isPlainName {name : String} (hname : IsPlainName name) :
    named name = .ident name := by
  have hconstants := hname.2
  simp only [List.mem_cons, List.not_mem_nil, or_false, not_or] at hconstants
  obtain ⟨htrue, hfalse, hnone⟩ := hconstants
  rw [named, if_neg htrue, if_neg hfalse, if_neg hnone]

namespace Expr

theorem render_list_cases (items : List Expr) (indent : Nat) :
    render indent (.list items) = "[" ++ joined ", " (renderItems indent items) ++ "]" ∨
      render indent (.list items) =
        broken "[" "]" indent (renderItems (indent + indentStep) items) := by
  rw [render]
  dsimp only
  split_ifs
  · exact Or.inl rfl
  · exact Or.inr rfl
  · exact Or.inr rfl
  · exact Or.inl rfl
  · exact Or.inr rfl

theorem render_call_cases (function : String) (args : List (String × Expr)) (indent : Nat) :
    render indent (.call function args) =
        function ++ "(" ++ joined ", " (renderArgs indent args) ++ ")" ∨
      render indent (.call function args) =
        broken (function ++ "(") ")" indent (renderArgs (indent + indentStep) args) := by
  rw [render]
  dsimp only
  split_ifs
  · exact Or.inr rfl
  · exact Or.inl rfl
  · exact Or.inr rfl

mutual

/-- **Rendered expressions are read back.** -/
theorem reads_render : (value : Expr) → value.UsesOnly IsPlainName IsKeyword →
    ∀ indent, Reads (value.render indent) value
  | .str text, _, _ => by
      rw [render]
      exact reads_str text
  | .bool true, _, _ => by
      rw [render]
      exact reads_named "True" (by decide)
  | .bool false, _, _ => by
      rw [render]
      exact reads_named "False" (by decide)
  | .none, _, _ => by
      rw [render]
      exact reads_named "None" (by decide)
  | .ident name, .ident hname, _ => by
      rw [render, ← named_of_isPlainName hname]
      exact reads_named name hname.1
  -- the two layouts differ in the indentation at which the parts are rendered
  | .list items, .list hitems, indent => by
      rcases render_list_cases items indent with htext | htext
      · rw [htext]
        exact (reads_list (reads_renderItems items hitems indent)).1
      · rw [htext]
        exact (reads_list (reads_renderItems items hitems (indent + indentStep))).2 indent
  | .call function args, .call hfunction hkeywords hvalues, indent => by
      rcases render_call_cases function args indent with htext | htext
      · rw [htext]
        exact (reads_call hfunction.1 (reads_renderArgs args hkeywords hvalues indent)).1
      · rw [htext]
        exact (reads_call hfunction.1
          (reads_renderArgs args hkeywords hvalues (indent + indentStep))).2 indent

theorem reads_renderItems : (items : List Expr) →
    (∀ item ∈ items, item.UsesOnly IsPlainName IsKeyword) →
    ∀ indent, List.Forall₂ Reads (renderItems indent items) items
  | [], _, _ => by
      rw [renderItems]
      exact .nil
  | item :: items, hitems, indent => by
      rw [List.forall_mem_cons] at hitems
      rw [renderItems]
      exact .cons (reads_render item hitems.1 indent) (reads_renderItems items hitems.2 indent)

theorem reads_renderArgs : (args : List (String × Expr)) →
    (∀ argument ∈ args, IsKeyword argument.1) →
    (∀ argument ∈ args, argument.2.UsesOnly IsPlainName IsKeyword) →
    ∀ indent, List.Forall₂ ReadsArgument (renderArgs indent args) args
  | [], _, _, _ => by
      rw [renderArgs]
      exact .nil
  | (keyword, value) :: args, hkeywords, hvalues, indent => by
      rw [List.forall_mem_cons] at hkeywords hvalues
      rw [renderArgs]
      exact .cons (readsArgument hkeywords.1 (reads_render value hvalues.1 indent))
        (reads_renderArgs args hkeywords.2 hvalues.2 indent)

end

end Expr

/-! ## Whole texts -/

/-- The tokens of a text, whatever lines they stand on. -/
def scanTokens? (text : String) : Option (List Token) :=
  match (within [] 0 []).read (text.toList ++ ['\n']) with
  | some ⟨found, _, _, .margin _⟩ => some (found.flatMap Line.tokens)
  | _ => none

theorem scanTokens?_of_yields {text : String} {tokens : List Token}
    (hyields : Yields text.toList tokens) : scanTokens? text = some tokens := by
  have hclosed : isOpen tokens = false := by
    have hbalanced := hyields.balanced
    unfold isOpen Balanced at *
    rw [hbalanced]
    exact decide_eq_false (Nat.lt_irrefl _)
  have hread : (within [] 0 []).read (text.toList ++ ['\n']) =
      some ⟨[⟨0, tokens⟩], 0, [], .margin 0⟩ :=
    calc (within [] 0 []).read (text.toList ++ ['\n'])
        = (within [] 0 tokens).read ['\n'] :=
          hyields.reads [] 0 [] (Nat.le_refl _) '\n' (by decide) []
      _ = some ⟨[⟨0, tokens⟩], 0, [], .margin 0⟩ := read_cons (step_lineFeed hclosed) []
  rw [scanTokens?, hread]
  simp

namespace Expr

/-- The expression that a text consists of. -/
def ofText? (text : String) : Option Expr :=
  (scanTokens? text).bind parseExpr?

theorem ofText?_of_reads {text : String} {value : Expr} (hreads : Reads text value) :
    ofText? text = some value := by
  obtain ⟨tokens, hyields, hparses⟩ := hreads
  rw [ofText?, scanTokens?_of_yields hyields]
  exact parseExpr?_of_parses hparses

/-- **The text of an expression is decodable.**  At every indentation it is read to its end, as
the expression that was rendered; so no other expression has that text, at whatever
indentation. -/
theorem ofText?_render {value : Expr} (hvalue : value.UsesOnly IsPlainName IsKeyword)
    (indent : Nat) :
    ofText? (value.render indent) = some value ∧
      ∀ other : Expr, other.UsesOnly IsPlainName IsKeyword → ∀ indent',
        other.render indent' = value.render indent → other = value := by
  have hread := ofText?_of_reads (reads_render value hvalue indent)
  refine ⟨hread, ?_⟩
  intro other hother indent' htext
  have hread' := ofText?_of_reads (reads_render other hother indent')
  rw [htext, hread] at hread'
  exact (Option.some.inj hread').symm

/-- A keyword twice, a call and a list in a list, and strings that look like the end of one. -/
def nestedSample : Expr :=
  .call "struct.feature" [
    ("name", .str "a\"],\n("),
    ("name", .list [.list [], .list [.ident "ACTION_NAMES.strip", .none], .call "f" []]),
    ("enabled", .bool true)]

theorem usesOnly_nestedSample : nestedSample.UsesOnly IsPlainName IsKeyword := by
  have hnames : ∀ name ∈ ["struct.feature", "ACTION_NAMES.strip", "f"], IsPlainName name := by
    simp only [List.forall_mem_cons, IsPlainName]
    decide
  simp only [List.forall_mem_cons] at hnames
  obtain ⟨hfeature, haction, hcall, -⟩ := hnames
  have hinner : ∀ item ∈ [Expr.ident "ACTION_NAMES.strip", .none],
      item.UsesOnly IsPlainName IsKeyword := by
    simp only [List.forall_mem_cons]
    exact ⟨.ident haction, .none, List.forall_mem_nil _⟩
  have hitems : ∀ item ∈ [.list [], .list [.ident "ACTION_NAMES.strip", .none],
      Expr.call "f" []], item.UsesOnly IsPlainName IsKeyword := by
    simp only [List.forall_mem_cons]
    exact ⟨.list (List.forall_mem_nil _), .list hinner,
      .call hcall (List.forall_mem_nil _) (List.forall_mem_nil _), List.forall_mem_nil _⟩
  refine .call hfeature ?_ ?_
  · simp only [List.forall_mem_cons, IsKeyword]
    exact ⟨by decide, by decide, by decide, List.forall_mem_nil _⟩
  · simp only [List.forall_mem_cons]
    exact ⟨.str _, .list hitems, .bool true, List.forall_mem_nil _⟩

theorem ofText?_render_nestedSample :
    nestedSample.UsesOnly IsPlainName IsKeyword ∧
      ofText? (nestedSample.render 6) = some nestedSample ∧
      ∀ other : Expr, other.UsesOnly IsPlainName IsKeyword → ∀ indent',
        other.render indent' = nestedSample.render 6 → other = nestedSample :=
  ⟨usesOnly_nestedSample, ofText?_render usesOnly_nestedSample 6⟩

end Expr

end ToolchainMerge.Starlark
