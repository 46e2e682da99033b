import ToolchainMerge.Proofs.Reader

/-!
# Reading programs

A program is read line by line.  A line is a command or the head of a branch
(`readContent?`); the indentation says which commands a branch consists of (`Nesting`).

Of Starlark there is what rules are written in.  A command assigns an expression to a variable
or fails with a message; conditions compare names with literals, where `and` binds tighter than
`or`; branches hold commands only.  Reserved words name nothing.
-/

namespace ToolchainMerge.Starlark

/-! ## Programs -/

/-- A command: it assigns a value, or it fails with a message. -/
inductive Command where
  | assign (target : String) (value : Expr)
  | fail (message : String)
deriving DecidableEq, Inhabited, Repr

/-- A condition: for one of its lists, all names have the values that they are compared with. -/
abbrev Guard : Type :=
  List (List (String × String))

/-- The commands that are executed under a condition. -/
structure Alternative where
  guard : Guard
  body : List Command
deriving DecidableEq, Inhabited, Repr

/-- A command, or a choice of the commands to execute. -/
inductive Statement where
  | command (command : Command)
  /-- The first alternative whose condition holds, or else the commands behind `else`. -/
  | choose (alternatives : List Alternative) (otherwise : Option (List Command))
deriving DecidableEq, Inhabited, Repr

/-! ## Reserved words -/

/-- The words that Starlark keeps for itself. -/
def reservedWords : List String :=
  ["and", "as", "assert", "async", "await", "break", "class", "continue", "def", "del", "elif",
    "else", "except", "finally", "for", "from", "global", "if", "import", "in", "is", "lambda",
    "load", "nonlocal", "not", "or", "pass", "raise", "return", "try", "while", "with", "yield"]

/-- Whether a component of a name is reserved. -/
def isReserved (name : String) : Bool :=
  (name.toList.splitOn '.').any fun component => String.ofList component ∈ reservedWords

namespace Expr

mutual

/-- Whether no name and no keyword in an expression is reserved. -/
def avoidsReserved : Expr → Bool
  | .str _ | .bool _ | .none => true
  | .ident name => !isReserved name
  | .list items => itemsAvoidReserved items
  | .call name args => !isReserved name && argsAvoidReserved args

/-- Whether all items of a list avoid reserved words. -/
def itemsAvoidReserved : List Expr → Bool
  | [] => true
  | item :: items => avoidsReserved item && itemsAvoidReserved items

/-- Whether all arguments of a call avoid reserved words. -/
def argsAvoidReserved : List (String × Expr) → Bool
  | [] => true
  | (keyword, value) :: args =>
      !isReserved keyword && avoidsReserved value && argsAvoidReserved args

end

end Expr

/-! ## Lines -/

/-- What a line is. -/
inductive Content where
  | command (command : Command)
  | when (guard : Guard)
  | elseWhen (guard : Guard)
  | otherwise
deriving DecidableEq, Inhabited, Repr

/-- The condition whose tokens stand behind the opening parenthesis. -/
def readGuard? : List Token → Option Guard
  | [.name name, .equals, .literal value, .mark ')', .mark ':'] =>
      if isReserved name then none else some [[(name, value)]]
  | .name name :: .equals :: .literal value :: .name word :: rest =>
      if isReserved name then none
      else
        match word, readGuard? rest with
        | "or", some guard => some ([(name, value)] :: guard)
        | "and", some (first :: guard) => some (((name, value) :: first) :: guard)
        | _, _ => none
  | _ => none

/-- What the tokens of a line are. -/
def readContent? : List Token → Option Content
  | [.name "else", .mark ':'] => some .otherwise
  | .name "if" :: .mark '(' :: rest => (readGuard? rest).map .when
  | .name "elif" :: .mark '(' :: rest => (readGuard? rest).map .elseWhen
  | [.name "fail", .mark '(', .literal message, .mark ')'] => some (.command (.fail message))
  | .name target :: .mark '=' :: rest =>
      if isIdentifier target.toList && !isReserved target then
        (parseExpr? rest).bind fun value =>
          if value.avoidsReserved then some (.command (.assign target value)) else none
      else none
  | _ => none

/-! ## Indentation -/

/-- What has been read of a program. -/
inductive Nesting where
  | outside (statements : List Statement)
  /-- A branch, behind complete statements and the alternatives before it.  It has a condition
  unless it stands behind `else`; its commands, if there are any yet, are indented by
  `width`. -/
  | inside (statements : List Statement) (alternatives : List Alternative)
      (guard? : Option Guard) (width : Nat) (body : List Command)
deriving Inhabited, Repr

namespace Nesting

/-- The statement that ends with a branch. -/
def closed (alternatives : List Alternative) (guard? : Option Guard) (body : List Command) :
    Statement :=
  match guard? with
  | some guard => .choose (alternatives ++ [⟨guard, body⟩]) none
  | none => .choose alternatives (some body)

/-- The statements of a program that ends here; a branch must not be empty. -/
def finish? : Nesting → Option (List Statement)
  | .outside statements => some statements
  | .inside statements alternatives guard? _ body =>
      if body = [] then none else some (statements ++ [closed alternatives guard? body])

/-- The first line of a statement. -/
def begin? (statements : List Statement) : Content → Option Nesting
  | .command command => some (.outside (statements ++ [.command command]))
  | .when guard => some (.inside statements [] (some guard) 0 [])
  | _ => none

/-- Adds a line of a program whose statements are indented by `base`. -/
def step (base : Nat) (nesting : Nesting) (line : Nat × Content) : Option Nesting :=
  if line.1 = base then
    -- a branch that is not empty goes on with `elif` or `else`; anything else ends it
    match nesting, line.2 with
    | .inside statements alternatives (some guard) _ (first :: body), .elseWhen other =>
        some (.inside statements (alternatives ++ [⟨guard, first :: body⟩]) (some other) 0 [])
    | .inside statements alternatives (some guard) _ (first :: body), .otherwise =>
        some (.inside statements (alternatives ++ [⟨guard, first :: body⟩]) none 0 [])
    | nesting, content => nesting.finish?.bind fun statements => begin? statements content
  else
    match nesting, line.2 with
    | .inside statements alternatives guard? width body, .command command =>
        if base < line.1 ∧ (body = [] ∨ width = line.1) then
          some (.inside statements alternatives guard? line.1 (body ++ [command]))
        else none
    | _, _ => none

end Nesting

/-- The statements that a text consists of.  They are indented like the first of them. -/
def parseProgram? (text : String) : Option (List Statement) := do
  let lines ← scanLines? text
  let contents ← lines.mapM fun line =>
    (readContent? line.tokens).map fun content => (line.indent, content)
  let base := (contents.head?.map (·.1)).getD 0
  let nesting ← contents.foldlM (Nesting.step base) (.outside [])
  nesting.finish?

/-! ## Pieces of programs -/

open Scan Text

/-- A text of whole lines and what they are. -/
def ReadsLines (text : String) (contents : List (Nat × Content)) : Prop :=
  ∃ added : List Line,
    (∀ lines rest, (⟨lines, 0, [], .margin 0⟩ : Scan).read (text.toList ++ rest) =
      (⟨lines ++ added, 0, [], .margin 0⟩ : Scan).read rest) ∧
    List.Forall₂ (fun (line : Line) (content : Nat × Content) =>
      line.indent = content.1 ∧ readContent? line.tokens = some content.2) added contents

theorem readsLines_nil : ReadsLines "" [] := by
  refine ⟨[], fun lines rest => ?_, .nil⟩
  rw [List.append_nil]
  rfl

theorem ReadsLines.append {text other : String} {contents others : List (Nat × Content)}
    (htext : ReadsLines text contents) (hother : ReadsLines other others) :
    ReadsLines (text ++ other) (contents ++ others) := by
  obtain ⟨added, hread, hcontents⟩ := htext
  obtain ⟨more, hreadMore, hothers⟩ := hother
  refine ⟨added ++ more, fun lines rest => ?_, List.rel_append hcontents hothers⟩
  rw [String.toList_append, List.append_assoc, hread, hreadMore, List.append_assoc]

/-- Blank lines count for nothing. -/
theorem readsLines_blank : ReadsLines "\n" [] := by
  refine ⟨[], fun lines rest => ?_, .nil⟩
  rw [List.append_nil]
  exact read_cons rfl rest

theorem readsLines_concat {α : Type} {toText : α → String} {toContents : α → List (Nat × Content)}
    {elements : List α} (helements : ∀ element ∈ elements,
      ReadsLines (toText element) (toContents element)) :
    ReadsLines (concat (elements.map toText)) (elements.flatMap toContents) := by
  induction elements with
  | nil => exact readsLines_nil
  | cons element elements ih =>
      rw [List.forall_mem_cons] at helements
      rw [List.map_cons, concat, List.flatMap_cons]
      exact helements.1.append (ih helements.2)

/-- **One line.** -/
theorem readsLines_line {body : String} {tokens : List Token} (hbody : Yields body.toList tokens)
    (hstart : ∃ char chars, body.toList = char :: chars ∧ isWordStart char = true)
    {content : Content} (hcontent : readContent? tokens = some content) (indent : Nat) :
    ReadsLines (spaces indent ++ body ++ "\n") [(indent, content)] := by
  refine ⟨[⟨indent, tokens⟩], fun lines rest => ?_, .cons ⟨rfl, hcontent⟩ .nil⟩
  obtain ⟨char, chars, hchars, hword⟩ := hstart
  have htext : (spaces indent ++ body ++ "\n").toList ++ rest =
      List.replicate indent ' ' ++ (body.toList ++ '\n' :: rest) := by
    simp [spaces]
  -- the word at the front ends the margin
  have hmargin : (⟨lines, 0, [], .margin indent⟩ : Scan).read (body.toList ++ '\n' :: rest) =
      (within lines indent []).read (body.toList ++ '\n' :: rest) := by
    rw [hchars]
    exact read_cons_congr (step_margin hword) _
  have hclosed : isOpen tokens = false := by
    have hbalanced := hbody.balanced
    unfold Balanced at hbalanced
    unfold isOpen
    rw [hbalanced]
    simp
  rw [htext, read_margin, Nat.zero_add, hmargin,
    hbody.reads lines indent [] (Nat.le_refl _) '\n' (by decide), List.nil_append]
  exact read_cons (step_lineFeed hclosed) rest

/-- A text of whole lines is read as a program if its lines make up the statements of one. -/
theorem parseProgram?_of_readsLines {text : String} {contents : List (Nat × Content)}
    (htext : ReadsLines text contents) {base : Nat}
    (hbase : ∀ content ∈ contents.head?, content.1 = base) {nesting : Nesting}
    (hnesting : contents.foldlM (Nesting.step base) (.outside []) = some nesting) :
    parseProgram? text = nesting.finish? := by
  obtain ⟨added, hread, hcontents⟩ := htext
  have hscan : scanLines? text = some added := by
    have hlines := hread [] []
    rw [List.append_nil, List.nil_append] at hlines
    rw [scanLines?, initial, hlines]
    rfl
  have hmap : (added.mapM fun line =>
      (readContent? line.tokens).map fun content => (line.indent, content)) = some contents := by
    clear hread hscan hbase hnesting
    induction hcontents with
    | nil => rfl
    | cons hcontent _ ih =>
        rw [List.mapM_cons, ih, hcontent.2, hcontent.1]
        rfl
  -- without lines there is no indentation to agree on
  have hhead : (contents.head?.map (·.1)).getD 0 = base ∨ contents = [] := by
    cases contents with
    | nil => exact Or.inr rfl
    | cons content contents => exact Or.inl (hbase content rfl)
  rw [parseProgram?, hscan]
  simp only [Option.bind_eq_bind, Option.bind_some, hmap]
  rcases hhead with hhead | rfl
  · rw [hhead, hnesting]
    rfl
  · rw [List.foldlM_nil] at hnesting ⊢
    rw [hnesting]
    rfl

end ToolchainMerge.Starlark
