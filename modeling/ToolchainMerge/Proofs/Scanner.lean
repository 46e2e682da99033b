import ToolchainMerge.Starlark.Quoted
import ToolchainMerge.Text.Basic

/-!
# Scanning Starlark

The scanner reads a text character by character and collects logical lines: an indentation and
the tokens behind it.  Blank lines count for nothing, and a line feed between brackets is a
space.  What the scanner is in the middle of is its `Mode`; a token is complete only when the
character behind it is known.

Of Starlark there is what rules are written in: names, string literals with the usual
escapes, brackets, commas, colons, `=` and `==`.  Everything else is refused, also where
Starlark would read something different: a prefix in front of a literal, a third quote behind
an empty one, a number, a comment, a tab.

A piece of text is known by the tokens that it adds to a line whenever a delimiter follows
(`Yields`).  This module finds them for words.
-/

namespace ToolchainMerge.Starlark

open Text

/-! ## Tokens and lines -/

/-- A token of Starlark. -/
inductive Token where
  /-- An identifier, or several with dots between them. -/
  | name (text : String)
  /-- A string literal, decoded. -/
  | literal (text : String)
  /-- A bracket, a comma, a colon or an equals sign. -/
  | mark (char : Char)
  | equals
deriving DecidableEq, Inhabited, Repr

/-- A logical line. -/
structure Line where
  indent : Nat
  tokens : List Token
deriving DecidableEq, Inhabited, Repr

/-- Whether a token opens brackets. -/
def Token.isOpening (token : Token) : Bool :=
  token = .mark '(' || token = .mark '['

/-- Whether a token closes brackets. -/
def Token.isClosing (token : Token) : Bool :=
  token = .mark ')' || token = .mark ']'

/-- Whether a bracket is open behind some tokens. -/
def isOpen (tokens : List Token) : Bool :=
  tokens.countP Token.isClosing < tokens.countP Token.isOpening

/-! ## Characters -/

/-- The characters that identifiers start with. -/
def isWordStart (char : Char) : Bool :=
  char.isAlpha || char = '_'

/-- The characters of identifiers. -/
def isNameChar (char : Char) : Bool :=
  char.isAlphanum || char = '_'

/-- The characters that words consist of. -/
def isWordChar (char : Char) : Bool :=
  isNameChar char || char = '.'

/-- Identifiers: letters, digits and underscores, no digit in front. -/
def isIdentifier : List Char → Bool
  | [] => false
  | first :: rest => isWordStart first && rest.all isNameChar

/-- Identifiers with dots between them. -/
def isPath (chars : List Char) : Bool :=
  (chars.splitOn '.').all isIdentifier

/-- The brackets and signs that are tokens by themselves. -/
def marks : List Char :=
  ['(', ')', '[', ']', ',', ':']

/-- The character that an escape stands for. -/
def unescaped? : Char → Option Char
  | '\\' => some '\\'
  | '"' => some '"'
  | 'n' => some '\n'
  | 'r' => some '\r'
  | 't' => some '\t'
  | _ => none

/-! ## The scanner -/

/-- What the scanner is in the middle of. -/
inductive Mode where
  /-- The indentation of a line, of this width so far. -/
  | margin (width : Nat)
  /-- Nothing: it is between two tokens. -/
  | between
  | word (chars : List Char)
  | literal (chars : List Char)
  | escape (chars : List Char)
  /-- The end of a literal; what follows must not touch it. -/
  | closed
  /-- An equals sign, which may become two. -/
  | equal
deriving DecidableEq, Inhabited, Repr

/-- The scanner: the complete lines, the indentation and the tokens of the current line. -/
structure Scan where
  lines : List Line
  indent : Nat
  tokens : List Token
  mode : Mode
deriving DecidableEq, Inhabited, Repr

namespace Scan

/-- The scanner at the beginning of a text. -/
def initial : Scan :=
  ⟨[], 0, [], .margin 0⟩

/-- The scanner between two tokens of a line. -/
def within (lines : List Line) (indent : Nat) (tokens : List Token) : Scan :=
  ⟨lines, indent, tokens, .between⟩

/-- Reads a character between two tokens. -/
def start (scan : Scan) (char : Char) : Option Scan :=
  if isWordStart char then some { scan with mode := .word [char] }
  else if char = '"' then some { scan with mode := .literal [] }
  else if char = '=' then some { scan with mode := .equal }
  else if char ∈ marks then
    some (within scan.lines scan.indent (scan.tokens ++ [Token.mark char]))
  else if char = ' ' then some (within scan.lines scan.indent scan.tokens)
  else if char = '\n' then
    if isOpen scan.tokens then some (within scan.lines scan.indent scan.tokens)
    else some ⟨scan.lines ++ [⟨scan.indent, scan.tokens⟩], 0, [], .margin 0⟩
  else none

/-- Reads one character. -/
def step (scan : Scan) (char : Char) : Option Scan :=
  match scan.mode with
  | .margin width =>
      if char = ' ' then some { scan with mode := .margin (width + 1) }
      else if char = '\n' then some { scan with mode := .margin 0 }
      else start { scan with indent := width } char
  | .between => start scan char
  | .word chars =>
      if isWordChar char then some { scan with mode := .word (chars ++ [char]) }
      else if isPath chars ∧ char ≠ '"' then
        start { scan with tokens := scan.tokens ++ [Token.name (String.ofList chars)] } char
      else none
  | .literal chars =>
      if char = '"' then
        some { scan with
          tokens := scan.tokens ++ [.literal (String.ofList chars)], mode := .closed }
      else if char = '\\' then some { scan with mode := .escape chars }
      else if char = '\n' then none
      else some { scan with mode := .literal (chars ++ [char]) }
  | .escape chars =>
      (unescaped? char).map fun meant => { scan with mode := .literal (chars ++ [meant]) }
  | .closed => if char = '"' ∨ isWordChar char then none else start scan char
  | .equal =>
      if char = '=' then some (within scan.lines scan.indent (scan.tokens ++ [Token.equals]))
      else start { scan with tokens := scan.tokens ++ [Token.mark '='] } char

/-- Reads characters one after another, up to the first that does not fit. -/
def read (scan : Scan) (chars : List Char) : Option Scan :=
  chars.foldlM step scan

end Scan

/-- The logical lines of a text; the last one has to be complete. -/
def scanLines? (text : String) : Option (List Line) :=
  match Scan.initial.read text.toList with
  | some ⟨lines, _, _, .margin _⟩ => some lines
  | _ => none

/-! ## Single characters -/

namespace Scan

variable {lines : List Line} {indent : Nat} {tokens : List Token}

/-- The characters that end a word or a literal before them. -/
def delimiters : List Char :=
  ' ' :: '\n' :: marks

theorem ends_of_mem_delimiters {char : Char} (hchar : char ∈ delimiters) :
    isWordChar char = false ∧ char ≠ '"' := by
  have hends : ∀ delimiter ∈ delimiters, isWordChar delimiter = false ∧ delimiter ≠ '"' := by
    simp [delimiters, marks, isWordChar, isNameChar]
  exact hends char hchar

theorem read_append (scan : Scan) (chars others : List Char) :
    scan.read (chars ++ others) = (scan.read chars).bind fun next => next.read others :=
  List.foldlM_append

theorem read_cons {scan next : Scan} {char : Char} (hstep : scan.step char = some next)
    (chars : List Char) : scan.read (char :: chars) = next.read chars := by
  rw [read, List.foldlM_cons, hstep]
  rfl

/-- What has been read does not matter if the next character makes it equal. -/
theorem read_cons_congr {scan other : Scan} {char : Char}
    (hstep : scan.step char = other.step char) (chars : List Char) :
    scan.read (char :: chars) = other.read (char :: chars) := by
  rw [read, List.foldlM_cons, hstep]
  rfl

theorem step_space : (within lines indent tokens).step ' ' = some (within lines indent tokens) :=
  rfl

theorem step_mark {char : Char} (hchar : char ∈ marks) :
    (within lines indent tokens).step char =
      some (within lines indent (tokens ++ [Token.mark char])) := by
  have hkinds : ∀ mark ∈ marks, isWordStart mark = false ∧ mark ≠ '"' ∧ mark ≠ '=' := by
    simp [marks, isWordStart]
  obtain ⟨hword, hquote, hequal⟩ := hkinds char hchar
  unfold step start within
  simp [hword, hquote, hequal, hchar]

/-- A line feed between brackets is a space. -/
theorem step_lineFeed_of_open (hopen : isOpen tokens = true) :
    (within lines indent tokens).step '\n' = some (within lines indent tokens) :=
  if_pos hopen

/-- A line feed outside brackets completes the line. -/
theorem step_lineFeed (hclosed : isOpen tokens = false) :
    (within lines indent tokens).step '\n' =
      some ⟨lines ++ [⟨indent, tokens⟩], 0, [], .margin 0⟩ :=
  if_neg (by simp [within, hclosed])

theorem read_spaces (width : Nat) (rest : List Char) :
    (within lines indent tokens).read (List.replicate width ' ' ++ rest) =
      (within lines indent tokens).read rest := by
  induction width with
  | zero => rfl
  | succ width ih =>
      rw [List.replicate_succ, List.cons_append, read_cons step_space]
      exact ih

theorem step_margin {char : Char} (hchar : isWordStart char = true) :
    (⟨lines, 0, [], .margin indent⟩ : Scan).step char = (within lines indent []).step char := by
  have hblank : char ≠ ' ' ∧ char ≠ '\n' := by
    constructor <;> (rintro rfl; exact absurd hchar (by decide))
  unfold step within
  simp only
  rw [if_neg hblank.1, if_neg hblank.2]
  unfold start
  simp only [hchar, if_true]

/-- The spaces in front of a line are its indentation. -/
theorem read_margin (lines : List Line) (width more : Nat) (rest : List Char) :
    (⟨lines, 0, [], .margin width⟩ : Scan).read (List.replicate more ' ' ++ rest) =
      (⟨lines, 0, [], .margin (width + more)⟩ : Scan).read rest := by
  induction more generalizing width with
  | zero => rfl
  | succ more ih =>
      have hstep : (⟨lines, 0, [], .margin width⟩ : Scan).step ' ' =
          some ⟨lines, 0, [], .margin (width + 1)⟩ := rfl
      rw [List.replicate_succ, List.cons_append, read_cons hstep, ih]
      congr 3
      omega

end Scan

/-! ## Pieces of text -/

open Scan

/-- Tokens that close as many brackets as they open. -/
def Balanced (tokens : List Token) : Prop :=
  tokens.countP Token.isOpening = tokens.countP Token.isClosing

instance (tokens : List Token) : Decidable (Balanced tokens) :=
  inferInstanceAs (Decidable (_ = _))

theorem Balanced.append {tokens added : List Token} (htokens : Balanced tokens)
    (hadded : Balanced added) : Balanced (tokens ++ added) := by
  unfold Balanced at *
  rw [List.countP_append, List.countP_append, htokens, hadded]

theorem closing_le_append {tokens added : List Token}
    (htokens : tokens.countP Token.isClosing ≤ tokens.countP Token.isOpening)
    (hadded : Balanced added) :
    (tokens ++ added).countP Token.isClosing ≤ (tokens ++ added).countP Token.isOpening := by
  unfold Balanced at hadded
  rw [List.countP_append, List.countP_append]
  omega

/-- The tokens that a piece of text adds to a line whenever a delimiter follows. -/
structure Yields (chars : List Char) (added : List Token) : Prop where
  balanced : Balanced added
  reads : ∀ (lines : List Line) (indent : Nat) (tokens : List Token),
    tokens.countP Token.isClosing ≤ tokens.countP Token.isOpening →
    ∀ char ∈ delimiters, ∀ rest,
      (within lines indent tokens).read (chars ++ char :: rest) =
        (within lines indent (tokens ++ added)).read (char :: rest)

theorem isNameChar_of_isWordStart {char : Char} (hchar : isWordStart char = true) :
    isNameChar char = true := by
  unfold isWordStart at hchar
  unfold isNameChar Char.isAlphanum
  rw [Bool.or_eq_true] at hchar
  rcases hchar with halpha | hunderscore
  · rw [halpha, Bool.true_or, Bool.true_or]
  · rw [hunderscore, Bool.or_true]

theorem isNameChar_of_isIdentifier {chars : List Char} (hchars : isIdentifier chars = true) :
    ∀ char ∈ chars, isNameChar char = true := by
  cases chars with
  | nil => exact List.forall_mem_nil _
  | cons first rest =>
      rw [isIdentifier, Bool.and_eq_true, List.all_eq_true] at hchars
      exact List.forall_mem_cons.mpr ⟨isNameChar_of_isWordStart hchars.1, hchars.2⟩

theorem isWordChar_of_isIdentifier {chars : List Char} (hchars : isIdentifier chars = true) :
    ∀ char ∈ chars, isWordChar char = true := by
  intro char hchar
  rw [isWordChar, isNameChar_of_isIdentifier hchars char hchar, Bool.true_or]

/-- There is one component where there is no dot. -/
theorem splitOn_of_isIdentifier {chars : List Char} (hchars : isIdentifier chars = true) :
    chars.splitOn '.' = [chars] :=
  List.splitOn_eq_singleton fun hdot =>
    absurd (isNameChar_of_isIdentifier hchars '.' hdot) (by decide)

theorem isPath_of_isIdentifier {chars : List Char} (hchars : isIdentifier chars = true) :
    isPath chars = true := by
  rw [isPath, splitOn_of_isIdentifier hchars, List.all_cons, List.all_nil, Bool.and_true]
  exact hchars

/-- Components of word characters make up a word. -/
theorem isWordChar_of_mem_splitOn {chars : List Char}
    (hchars : ∀ component ∈ chars.splitOn '.', ∀ char ∈ component, isWordChar char = true) :
    ∀ char ∈ chars, isWordChar char = true := by
  induction chars with
  | nil => exact List.forall_mem_nil _
  | cons first rest ih =>
      -- a dot opens a component, any other character joins the first one
      obtain ⟨head, tail, hsplit⟩ := List.exists_cons_of_ne_nil (List.splitOn_ne_nil '.' rest)
      rw [List.splitOn_cons_eq_if_modifyHead, hsplit] at hchars
      rw [hsplit] at ih
      by_cases hdot : first = '.'
      · rw [if_pos (by simp [hdot]), List.forall_mem_cons] at hchars
        refine List.forall_mem_cons.mpr ⟨?_, ih hchars.2⟩
        rw [hdot]
        rfl
      · rw [if_neg (by simp [hdot]), List.modifyHead_cons, List.forall_mem_cons,
          List.forall_mem_cons] at hchars
        exact List.forall_mem_cons.mpr
          ⟨hchars.1.1, ih (List.forall_mem_cons.mpr ⟨hchars.1.2, hchars.2⟩)⟩

/-- A path is a word: it starts with a letter or an underscore. -/
theorem word_of_isPath {chars : List Char} (hpath : isPath chars = true) :
    ∃ first rest, chars = first :: rest ∧ isWordStart first = true ∧
      ∀ char ∈ rest, isWordChar char = true := by
  rw [isPath, List.all_eq_true] at hpath
  have hword := isWordChar_of_mem_splitOn fun component hcomponent =>
    isWordChar_of_isIdentifier (hpath component hcomponent)
  cases chars with
  | nil => exact absurd (hpath [] (List.mem_singleton.mpr rfl)) (by decide)
  | cons first rest =>
      refine ⟨first, rest, rfl, ?_, (List.forall_mem_cons.mp hword).2⟩
      obtain ⟨head, tail, hsplit⟩ := List.exists_cons_of_ne_nil (List.splitOn_ne_nil '.' rest)
      rw [List.splitOn_cons_eq_if_modifyHead, hsplit] at hpath
      by_cases hdot : first = '.'
      · rw [if_pos (by simp [hdot])] at hpath
        exact absurd (hpath [] (List.mem_cons_self ..)) (by decide)
      · rw [if_neg (by simp [hdot]), List.modifyHead_cons] at hpath
        have hfirst := hpath _ (List.mem_cons_self ..)
        rw [isIdentifier, Bool.and_eq_true] at hfirst
        exact hfirst.1

theorem read_word {lines : List Line} {indent : Nat} {tokens : List Token}
    {before chars : List Char} (hchars : ∀ char ∈ chars, isWordChar char = true)
    (rest : List Char) :
    (⟨lines, indent, tokens, .word before⟩ : Scan).read (chars ++ rest) =
      (⟨lines, indent, tokens, .word (before ++ chars)⟩ : Scan).read rest := by
  induction chars generalizing before with
  | nil => rw [List.append_nil, List.nil_append]
  | cons char chars ih =>
      rw [List.forall_mem_cons] at hchars
      have hstep : (⟨lines, indent, tokens, .word before⟩ : Scan).step char =
          some ⟨lines, indent, tokens, .word (before ++ [char])⟩ := if_pos hchars.1
      rw [List.cons_append, read_cons hstep, ih hchars.2, List.append_assoc]
      rfl

/-- **Words.** -/
theorem yields_name {text : String} (hpath : isPath text.toList = true) :
    Yields text.toList [.name text] := by
  refine ⟨rfl, fun lines indent tokens _ char hchar rest => ?_⟩
  obtain ⟨first, others, hchars, hfirst, hothers⟩ := word_of_isPath hpath
  have hstart : (within lines indent tokens).step first =
      some ⟨lines, indent, tokens, .word [first]⟩ := if_pos hfirst
  obtain ⟨hword, hquote⟩ := ends_of_mem_delimiters hchar
  -- the delimiter completes the word and is then read on its own
  have hend : (⟨lines, indent, tokens, .word text.toList⟩ : Scan).step char =
      (within lines indent (tokens ++ [Token.name text])).step char := by
    unfold step
    simp [hword, hquote, hpath, within]
    rfl
  rw [hchars, List.cons_append, read_cons hstart, read_word hothers, List.singleton_append,
    ← hchars]
  exact read_cons_congr hend rest

/-! ## Joining pieces -/

/-- The tokens that the text between two pieces adds. -/
structure Joins (chars : List Char) (added : List Token) : Prop where
  delimiter : ∃ char ∈ delimiters, ∃ others, chars = char :: others
  balanced : Balanced added
  reads : ∀ (lines : List Line) (indent : Nat) (tokens : List Token),
    tokens.countP Token.isClosing ≤ tokens.countP Token.isOpening →
    ∀ rest, (within lines indent tokens).read (chars ++ rest) =
      (within lines indent (tokens ++ added)).read rest

theorem Yields.join {first between last : List Char}
    {firstTokens betweenTokens lastTokens : List Token}
    (hfirst : Yields first firstTokens) (hbetween : Joins between betweenTokens)
    (hlast : Yields last lastTokens) :
    Yields (first ++ between ++ last) (firstTokens ++ betweenTokens ++ lastTokens) := by
  refine ⟨(hfirst.balanced.append hbetween.balanced).append hlast.balanced,
    fun lines indent tokens hle char hchar rest => ?_⟩
  -- the first piece ends with the delimiter at the front of the text between
  obtain ⟨delimiter, hdelimiter, others, hchars⟩ := hbetween.delimiter
  have hleFirst := closing_le_append hle hfirst.balanced
  have hleBetween := closing_le_append hleFirst hbetween.balanced
  rw [List.append_assoc, List.append_assoc, hchars, List.cons_append,
    hfirst.reads lines indent tokens hle delimiter hdelimiter, ← List.cons_append, ← hchars,
    hbetween.reads _ _ _ hleFirst, hlast.reads _ _ _ hleBetween char hchar]
  simp only [List.append_assoc]

theorem joins_space : Joins [' '] [] := by
  refine ⟨⟨' ', by decide, [], rfl⟩, rfl, fun lines indent tokens _ rest => ?_⟩
  rw [List.append_nil]
  exact read_cons step_space rest

theorem joins_equal : Joins [' ', '=', ' '] [.mark '='] := by
  refine ⟨⟨' ', by decide, ['=', ' '], rfl⟩, rfl, fun lines indent tokens _ rest => ?_⟩
  have hequal : (within lines indent tokens).step '=' = some ⟨lines, indent, tokens, .equal⟩ := rfl
  have hspace : (⟨lines, indent, tokens, .equal⟩ : Scan).step ' ' =
      some (within lines indent (tokens ++ [Token.mark '='])) := rfl
  exact (read_cons step_space _).trans ((read_cons hequal _).trans (read_cons hspace _))

theorem joins_equals : Joins [' ', '=', '=', ' '] [.equals] := by
  refine ⟨⟨' ', by decide, ['=', '=', ' '], rfl⟩, rfl, fun lines indent tokens _ rest => ?_⟩
  have hfirst : (within lines indent tokens).step '=' = some ⟨lines, indent, tokens, .equal⟩ := rfl
  have hsecond : (⟨lines, indent, tokens, .equal⟩ : Scan).step '=' =
      some (within lines indent (tokens ++ [Token.equals])) := rfl
  exact (read_cons step_space _).trans
    ((read_cons hfirst _).trans ((read_cons hsecond _).trans (read_cons step_space _)))

theorem joins_word {word : String} (hpath : isPath word.toList = true) :
    Joins (' ' :: (word.toList ++ [' '])) [Token.name word] := by
  refine ⟨⟨' ', by decide, _, rfl⟩, rfl, fun lines indent tokens hle rest => ?_⟩
  rw [List.cons_append, read_cons step_space, List.append_assoc, List.singleton_append,
    (yields_name hpath).reads lines indent tokens hle ' ' (by decide)]
  exact read_cons step_space rest

theorem Yields.mark {chars : List Char} {added : List Token} (hchars : Yields chars added)
    {char : Char} (hchar : char = ',' ∨ char = ':') :
    Yields (chars ++ [char]) (added ++ [Token.mark char]) := by
  have hkinds : char ∈ marks ∧ char ∈ delimiters ∧ Balanced [.mark char] := by
    rcases hchar with rfl | rfl <;> decide
  obtain ⟨hmark, hdelimiter, hbalanced⟩ := hkinds
  refine ⟨hchars.balanced.append hbalanced, fun lines indent tokens hle next _ rest => ?_⟩
  rw [List.append_assoc, List.singleton_append,
    hchars.reads lines indent tokens hle char hdelimiter, read_cons (step_mark hmark),
    List.append_assoc]

end ToolchainMerge.Starlark
