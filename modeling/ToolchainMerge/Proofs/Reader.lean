import Mathlib.Data.List.Forall2
import ToolchainMerge.Proofs.Scanner
import ToolchainMerge.Starlark.Expr

/-!
# Reading expressions

An expression is read token by token.  Lists and calls that are not complete yet wait on a
stack of frames; a `Reading` says what is expected next.  A name is read before it is known
whether it is called, so it stays open for one token more.

Lists and argument lists may have a comma at the end.  Which of both they have depends on how
they are laid out, so a row of parts is followed in both ways: with commas between the parts
(`read_separatedBy`) and with a comma behind each (`read_commaTerminated`).
-/

namespace ToolchainMerge.Starlark

/-! ## The reader -/

/-- A list or call that is not complete. -/
inductive Frame where
  | items (before : List Expr)
  /-- A call with the arguments before the one that is read, and the keyword of that one. -/
  | argument (function : String) (before : List (String × Expr)) (keyword : String)
deriving Inhabited, Repr

/-- What has been read of an expression. -/
inductive Reading where
  | atValue (stack : List Frame)
  | afterName (text : String) (stack : List Frame)
  | afterValue (value : Expr) (stack : List Frame)
  | atKeyword (function : String) (before : List (String × Expr)) (stack : List Frame)
  | afterKeyword (function : String) (before : List (String × Expr)) (keyword : String)
      (stack : List Frame)
  | complete (value : Expr)
deriving Inhabited, Repr

/-- The mark that is put behind an expression. -/
def endMark : Token :=
  .mark '\n'

/-- The value of a name that is not called. -/
def named (text : String) : Expr :=
  if text = "True" then .bool true
  else if text = "False" then .bool false
  else if text = "None" then .none
  else .ident text

namespace Reading

/-- Reads the first token of a value. -/
def beginValue : List Frame → Token → Option Reading
  | stack, .literal text => some (.afterValue (.str text) stack)
  | stack, .name text => some (.afterName text stack)
  | .items before :: stack, .mark ']' => some (.afterValue (.list before) stack)
  | stack, .mark '[' => some (.atValue (.items [] :: stack))
  | _, _ => none

/-- Reads the token behind a value. -/
def endValue (value : Expr) : List Frame → Token → Option Reading
  | .items before :: stack, .mark ',' => some (.atValue (.items (before ++ [value]) :: stack))
  | .items before :: stack, .mark ']' => some (.afterValue (.list (before ++ [value])) stack)
  | .argument function before keyword :: stack, .mark ',' =>
      some (.atKeyword function (before ++ [(keyword, value)]) stack)
  | .argument function before keyword :: stack, .mark ')' =>
      some (.afterValue (.call function (before ++ [(keyword, value)])) stack)
  | [], .mark '\n' => some (.complete value)
  | _, _ => none

/-- Reads one token. -/
def step : Reading → Token → Option Reading
  | .atValue stack, token => beginValue stack token
  | .afterName text stack, token =>
      if token = .mark '(' then some (.atKeyword text [] stack)
      else endValue (named text) stack token
  | .afterValue value stack, token => endValue value stack token
  | .atKeyword function before stack, .mark ')' => some (.afterValue (.call function before) stack)
  | .atKeyword function before stack, .name keyword =>
      if isIdentifier keyword.toList then some (.afterKeyword function before keyword stack)
      else none
  | .afterKeyword function before keyword stack, .mark '=' =>
      some (.atValue (.argument function before keyword :: stack))
  | _, _ => none

/-- Reads tokens one after another, up to the first that does not fit. -/
def read (reading : Reading) (tokens : List Token) : Option Reading :=
  tokens.foldlM step reading

theorem read_append (reading : Reading) (tokens others : List Token) :
    reading.read (tokens ++ others) = (reading.read tokens).bind fun next => next.read others :=
  List.foldlM_append

theorem read_cons {reading next : Reading} {token : Token}
    (hstep : reading.step token = some next) (tokens : List Token) :
    reading.read (token :: tokens) = next.read tokens := by
  rw [read, List.foldlM_cons, hstep]
  rfl

theorem read_cons_congr {reading other : Reading} {token : Token}
    (hstep : reading.step token = other.step token) (tokens : List Token) :
    reading.read (token :: tokens) = other.read (token :: tokens) := by
  rw [read, List.foldlM_cons, hstep]
  rfl

theorem read_append_of_eq_some {reading next : Reading} {tokens : List Token}
    (hread : reading.read tokens = some next) (others : List Token) :
    reading.read (tokens ++ others) = next.read others := by
  rw [read_append, hread]
  rfl

end Reading

/-- The expression that a list of tokens is. -/
def parseExpr? (tokens : List Token) : Option Expr :=
  match (Reading.atValue []).read (tokens ++ [endMark]) with
  | some (.complete value) => some value
  | _ => none

/-! ## Values -/

open Reading

/-- The tokens of a value, whatever the value is part of. -/
def Parses (tokens : List Token) (value : Expr) : Prop :=
  ∀ stack, ∀ token ≠ .mark '(', ∀ rest,
    (Reading.atValue stack).read (tokens ++ token :: rest) =
      (Reading.afterValue value stack).read (token :: rest)

theorem parseExpr?_of_parses {tokens : List Token} {value : Expr} (hparses : Parses tokens value) :
    parseExpr? tokens = some value := by
  have hread : (Reading.atValue []).read (tokens ++ [endMark]) = some (.complete value) :=
    hparses [] endMark (by decide) []
  rw [parseExpr?, hread]

theorem parses_literal (text : String) : Parses [.literal text] (.str text) :=
  fun _ _ _ _ => rfl

theorem parses_name (text : String) : Parses [.name text] (named text) := by
  intro stack token htoken rest
  have hstep : (Reading.afterName text stack).step token =
      (Reading.afterValue (named text) stack).step token := if_neg htoken
  have hname : (Reading.atValue stack).step (.name text) = some (.afterName text stack) := rfl
  exact (read_cons hname _).trans (read_cons_congr hstep rest)

/-! ## Rows of parts -/

/-- Parts with the same tokens between each two neighbours. -/
def separatedBy (between : List Token) : List (List Token) → List Token
  | [] => []
  | [tokens] => tokens
  | tokens :: next :: others => tokens ++ between ++ separatedBy between (next :: others)

/-- Parts with a comma behind each. -/
def commaTerminated (parts : List (List Token)) : List Token :=
  parts.flatMap fun tokens => tokens ++ [Token.mark ',']

section Rows

variable {β : Type} {opened ended : List β → Reading} {closing : Token}

/-- The tokens of a part take a row of parts one element further. -/
def Extends (opened ended : List β → Reading) (closing : Token) (tokens : List Token)
    (element : β) : Prop :=
  ∀ before,
    (opened before).read (tokens ++ [Token.mark ',']) = some (opened (before ++ [element])) ∧
    (opened before).read (tokens ++ [closing]) = some (ended (before ++ [element]))

/-- A row with a comma behind each part. -/
theorem read_commaTerminated {parts : List (List Token)} {elements : List β}
    (hparts : List.Forall₂ (Extends opened ended closing) parts elements) (before : List β) :
    (opened before).read (commaTerminated parts) = some (opened (before ++ elements)) := by
  induction hparts generalizing before with
  | nil => rw [List.append_nil, commaTerminated, List.flatMap_nil]
           rfl
  | cons hpart _ ih =>
      rw [commaTerminated, List.flatMap_cons, read_append_of_eq_some (hpart before).1]
      rw [commaTerminated] at ih
      rw [ih, List.append_assoc]
      rfl

/-- A row with commas between the parts, up to its end. -/
theorem read_separatedBy (hend : ∀ before, (opened before).step closing = some (ended before))
    {parts : List (List Token)} {elements : List β}
    (hparts : List.Forall₂ (Extends opened ended closing) parts elements) (before : List β) :
    (opened before).read (separatedBy [Token.mark ','] parts ++ [closing]) =
      some (ended (before ++ elements)) := by
  induction hparts generalizing before with
  | nil =>
      rw [List.append_nil]
      exact read_cons (hend before) []
  | cons hpart hothers ih =>
      cases hothers with
      | nil => exact (hpart before).2
      | cons hnext hothers =>
          rw [separatedBy, List.append_assoc, read_append_of_eq_some (hpart before).1, ih,
            List.append_assoc]
          rfl

theorem read_commaTerminated_end
    (hend : ∀ before, (opened before).step closing = some (ended before))
    {parts : List (List Token)} {elements : List β}
    (hparts : List.Forall₂ (Extends opened ended closing) parts elements) (before : List β) :
    (opened before).read (commaTerminated parts ++ [closing]) =
      some (ended (before ++ elements)) := by
  rw [read_append_of_eq_some (read_commaTerminated hparts before)]
  exact read_cons (hend _) []

end Rows

/-! ## Lists and calls -/

theorem extends_items {tokens : List Token} {item : Expr} (hparses : Parses tokens item)
    (stack : List Frame) :
    Extends (fun before => .atValue (.items before :: stack))
      (fun items => .afterValue (.list items) stack) (.mark ']') tokens item := by
  intro before
  constructor
  · exact hparses _ _ (by decide) []
  · exact hparses _ _ (by decide) []

/-- The tokens of a list, whichever commas it has. -/
theorem parses_list {parts : List (List Token)} {items : List Expr}
    (hparts : List.Forall₂ Parses parts items) {row : List Token}
    (hrow : row = separatedBy [.mark ','] parts ∨ row = commaTerminated parts) :
    Parses (Token.mark '[' :: (row ++ [Token.mark ']'])) (.list items) := by
  intro stack token _ rest
  have hextends := hparts.imp fun tokens item hparses => extends_items hparses stack
  have hend : ∀ before, (Reading.atValue (.items before :: stack)).step (.mark ']') =
      some (.afterValue (.list before) stack) := fun _ => rfl
  have hread : (Reading.atValue (.items [] :: stack)).read (row ++ [Token.mark ']']) =
      some (.afterValue (.list items) stack) := by
    rcases hrow with rfl | rfl
    · exact read_separatedBy hend hextends []
    · exact read_commaTerminated_end hend hextends []
  have hopen : (Reading.atValue stack).step (.mark '[') =
      some (.atValue (.items [] :: stack)) := rfl
  rw [List.cons_append, read_cons hopen, read_append_of_eq_some hread]

/-- The tokens of an argument: the keyword and the value. -/
def ParsesArgument (tokens : List Token) (argument : String × Expr) : Prop :=
  isIdentifier argument.1.toList = true ∧
    ∃ value, tokens = .name argument.1 :: .mark '=' :: value ∧ Parses value argument.2

theorem extends_arguments {tokens : List Token} {argument : String × Expr}
    (hparses : ParsesArgument tokens argument) (function : String) (stack : List Frame) :
    Extends (fun before => .atKeyword function before stack)
      (fun args => .afterValue (.call function args) stack) (.mark ')') tokens argument := by
  intro before
  obtain ⟨hkeyword, value, rfl, hvalue⟩ := hparses
  have hstep : (Reading.atKeyword function before stack).step (.name argument.1) =
      some (.afterKeyword function before argument.1 stack) := if_pos hkeyword
  have hequal : (Reading.afterKeyword function before argument.1 stack).step (.mark '=') =
      some (.atValue (.argument function before argument.1 :: stack)) := rfl
  constructor
  · rw [List.cons_append, List.cons_append, read_cons hstep, read_cons hequal]
    exact hvalue _ _ (by decide) []
  · rw [List.cons_append, List.cons_append, read_cons hstep, read_cons hequal]
    exact hvalue _ _ (by decide) []

/-- The tokens of a call, whichever commas it has. -/
theorem parses_call (function : String) {parts : List (List Token)}
    {args : List (String × Expr)} (hparts : List.Forall₂ ParsesArgument parts args)
    {row : List Token} (hrow : row = separatedBy [.mark ','] parts ∨ row = commaTerminated parts) :
    Parses (Token.name function :: Token.mark '(' :: (row ++ [Token.mark ')']))
      (.call function args) := by
  intro stack token _ rest
  have hextends := hparts.imp fun tokens argument hparses =>
    extends_arguments hparses function stack
  have hend : ∀ before, (Reading.atKeyword function before stack).step (.mark ')') =
      some (.afterValue (.call function before) stack) := fun _ => rfl
  have hread : (Reading.atKeyword function [] stack).read (row ++ [Token.mark ')']) =
      some (.afterValue (.call function args) stack) := by
    rcases hrow with rfl | rfl
    · exact read_separatedBy hend hextends []
    · exact read_commaTerminated_end hend hextends []
  have hname : (Reading.atValue stack).step (.name function) =
      some (.afterName function stack) := rfl
  have hopen : (Reading.afterName function stack).step (.mark '(') =
      some (.atKeyword function [] stack) := rfl
  rw [List.cons_append, List.cons_append, read_cons hname, read_cons hopen,
    read_append_of_eq_some hread]

end ToolchainMerge.Starlark
