import ToolchainMerge.Proofs.Scanner

/-!
# Literals

`StandsFor` says what may stand between the two quotes of a literal, and for which characters:
an escape stands for one, and any character that is neither a quote nor a backslash nor a line
feed stands for itself.  `readLiteral?` reads such a literal in front of a text.  It stops behind
the closing quote and does not look at what follows.  A third quote behind an empty literal is
no different, though it would begin another kind of literal in Starlark; that one is for the
scanner to refuse.

What `quote` writes between its quotes stands for the text that it was given (`standsFor_escaped`).
Hence no text ends its literal early, whatever follows it: for the reader this is
`quote_selfDelimiting`, and for the scanner `yields_quote`.
-/

namespace ToolchainMerge.Starlark

open Scan

/-- What stands between the quotes of a literal, and the characters that it stands for. -/
inductive StandsFor : List Char → List Char → Prop
  | nil : StandsFor [] []
  | plain {char : Char} {body chars : List Char} (hquote : char ≠ '"') (hbackslash : char ≠ '\\')
      (hlineFeed : char ≠ '\n') (hrest : StandsFor body chars) :
      StandsFor (char :: body) (char :: chars)
  | escape {char meant : Char} {body chars : List Char} (hmeant : unescaped? char = some meant)
      (hrest : StandsFor body chars) :
      StandsFor ('\\' :: char :: body) (meant :: chars)

/-! ## Reading a literal -/

/-- Reads on inside a literal: the characters up to its closing quote, and what follows that. -/
def readInside? : List Char → Option (List Char × List Char)
  | [] => none
  | '"' :: rest => some ([], rest)
  | '\n' :: _ => none
  | ['\\'] => none
  | '\\' :: char :: inside => do
      let meant ← unescaped? char
      let (chars, rest) ← readInside? inside
      some (meant :: chars, rest)
  | char :: inside => do
      let (chars, rest) ← readInside? inside
      some (char :: chars, rest)

/-- Reads a literal in front of a text: the text that it stands for, and what follows it. -/
def readLiteral? (text : String) : Option (String × String) :=
  match text.toList with
  | '"' :: inside => do
      let (chars, rest) ← readInside? inside
      some (String.ofList chars, String.ofList rest)
  | _ => none

theorem readInside?_append {body chars : List Char} (hbody : StandsFor body chars)
    (rest : List Char) : readInside? (body ++ '"' :: rest) = some (chars, rest) := by
  induction hbody with
  | nil => rfl
  | plain hquote hbackslash hlineFeed _ ih =>
      rw [List.cons_append, readInside?, ih]
      · rfl
      · exact hquote
      · exact hlineFeed
      · exact fun heq _ => hbackslash heq
      · exact fun _ _ heq _ => hbackslash heq
  | escape hmeant _ ih =>
      rw [List.cons_append, List.cons_append, readInside?, hmeant, ih]
      rfl

theorem exists_standsFor_of_readInside? {inside chars rest : List Char}
    (hread : readInside? inside = some (chars, rest)) :
    ∃ body, StandsFor body chars ∧ inside = body ++ '"' :: rest := by
  fun_induction readInside? inside generalizing chars with
  | case1 => exact nomatch hread
  | case2 after =>
      obtain ⟨rfl, rfl⟩ := Prod.mk.inj (Option.some.inj hread)
      exact ⟨[], .nil, rfl⟩
  | case3 => exact nomatch hread
  | case4 => exact nomatch hread
  | case5 char inside ih =>
      obtain ⟨meant, hmeant, hread⟩ := Option.bind_eq_some_iff.mp hread
      obtain ⟨⟨tail, after⟩, htail, hread⟩ := Option.bind_eq_some_iff.mp hread
      obtain ⟨rfl, rfl⟩ := Prod.mk.inj (Option.some.inj hread)
      obtain ⟨body, hbody, rfl⟩ := ih htail
      exact ⟨_, .escape hmeant hbody, rfl⟩
  | case6 char inside hquote hlineFeed hlast hescape ih =>
      -- a backslash is either the last character or in front of another one
      have hbackslash : char ≠ '\\' := by
        intro heq
        cases inside with
        | nil => exact hlast heq rfl
        | cons next inside => exact hescape next inside heq rfl
      obtain ⟨⟨tail, after⟩, htail, hread⟩ := Option.bind_eq_some_iff.mp hread
      obtain ⟨rfl, rfl⟩ := Prod.mk.inj (Option.some.inj hread)
      obtain ⟨body, hbody, rfl⟩ := ih htail
      exact ⟨_, .plain hquote hbackslash hlineFeed hbody, rfl⟩

/-- **What is read as a literal** is a quote, something that stands for the text that was read,
and another quote. -/
theorem readLiteral?_eq_some_iff {text value rest : String} :
    readLiteral? text = some (value, rest) ↔
      ∃ body, StandsFor body value.toList ∧
        text.toList = '"' :: (body ++ '"' :: rest.toList) := by
  unfold readLiteral?
  constructor
  · intro hread
    split at hread
    · rename_i inside htext
      obtain ⟨⟨chars, after⟩, hinside, hread⟩ := Option.bind_eq_some_iff.mp hread
      obtain ⟨rfl, rfl⟩ := Prod.mk.inj (Option.some.inj hread)
      obtain ⟨body, hbody, rfl⟩ := exists_standsFor_of_readInside? hinside
      rw [String.toList_ofList, String.toList_ofList]
      exact ⟨body, hbody, htext⟩
    · exact nomatch hread
  · rintro ⟨body, hbody, htext⟩
    rw [htext]
    simp [readInside?_append hbody]

/-! ## Writing a literal -/

theorem standsFor_escaped (chars : List Char) : StandsFor (chars.flatMap escaped) chars := by
  induction chars with
  | nil => exact .nil
  | cons char chars ih =>
      rw [List.flatMap_cons]
      unfold escaped
      -- five characters have escapes, which cannot be confused; all others stand for themselves
      split
      · exact .escape rfl ih
      · exact .escape rfl ih
      · exact .escape rfl ih
      · exact .escape rfl ih
      · exact .escape rfl ih
      · rename_i hbackslash hquote hlineFeed _ _
        exact .plain hquote hbackslash hlineFeed ih

theorem toList_quote (text : String) :
    (quote text).toList = '"' :: (text.toList.flatMap escaped ++ ['"']) := by
  simp [quote]

/-- The reader takes a literal for the text that was written, and nothing behind it. -/
theorem readLiteral?_quote_append (text rest : String) :
    readLiteral? (quote text ++ rest) = some (text, rest) := by
  refine readLiteral?_eq_some_iff.mpr ⟨_, standsFor_escaped text.toList, ?_⟩
  simp [String.toList_append, toList_quote]

/-- The characters that move on to another line or to a tab stop. -/
def controls : List Char :=
  ['\n', '\r', '\t']

theorem not_mem_escaped {control : Char} (hcontrol : control ∈ controls) (char : Char) :
    control ∉ escaped char := by
  have hcases : control = '\n' ∨ control = '\r' ∨ control = '\t' := by
    simpa [controls] using hcontrol
  unfold escaped
  split
  case h_6 _ _ hlineFeed hreturn htab =>
    rw [List.mem_singleton]
    rintro rfl
    exact hcases.elim hlineFeed fun hcases => hcases.elim hreturn htab
  -- the escapes consist of other characters
  all_goals rcases hcases with rfl | rfl | rfl <;> decide

theorem not_mem_quote {control : Char} (hcontrol : control ∈ controls) (text : String) :
    control ∉ (quote text).toList := by
  have hquote : control ≠ '"' := by
    rintro rfl
    exact absurd hcontrol (by decide)
  rw [toList_quote]
  simp [hquote, not_mem_escaped hcontrol]

/-- **Literals are self-delimiting and stay on one line.**  Whatever follows a literal, exactly its
text is read and exactly what follows is left. -/
theorem quote_selfDelimiting (text rest : String) :
    readLiteral? (quote text ++ rest) = some (text, rest) ∧
      '\n' ∉ (quote text).toList ∧ '\r' ∉ (quote text).toList ∧ '\t' ∉ (quote text).toList :=
  ⟨readLiteral?_quote_append text rest, not_mem_quote (by decide) text,
    not_mem_quote (by decide) text, not_mem_quote (by decide) text⟩

/-! ## Scanning a literal -/

variable {lines : List Line} {indent : Nat} {tokens : List Token}

/-- The scanner collects the characters that the inside of a literal stands for. -/
theorem read_of_standsFor {body chars : List Char} (hbody : StandsFor body chars)
    (before rest : List Char) :
    (⟨lines, indent, tokens, .literal before⟩ : Scan).read (body ++ rest) =
      (⟨lines, indent, tokens, .literal (before ++ chars)⟩ : Scan).read rest := by
  induction hbody generalizing before with
  | nil => rw [List.append_nil, List.nil_append]
  | @plain char body chars hquote hbackslash hlineFeed _ ih =>
      have hstep : (⟨lines, indent, tokens, .literal before⟩ : Scan).step char =
          some ⟨lines, indent, tokens, .literal (before ++ [char])⟩ := by
        unfold step
        simp only
        rw [if_neg hquote, if_neg hbackslash, if_neg hlineFeed]
      rw [List.cons_append, read_cons hstep, ih, List.append_assoc]
      rfl
  | @escape char meant body chars hmeant _ ih =>
      have hbackslash : (⟨lines, indent, tokens, .literal before⟩ : Scan).step '\\' =
          some ⟨lines, indent, tokens, .escape before⟩ := rfl
      have hstep : (⟨lines, indent, tokens, .escape before⟩ : Scan).step char =
          some ⟨lines, indent, tokens, .literal (before ++ [meant])⟩ := by
        unfold step
        simp only
        rw [hmeant]
        rfl
      rw [List.cons_append, List.cons_append, read_cons hbackslash, read_cons hstep, ih,
        List.append_assoc]
      rfl

/-- **Literals.**  No text can end its literal early. -/
theorem yields_quote (text : String) : Yields (quote text).toList [.literal text] := by
  refine ⟨rfl, fun lines indent tokens _ char hchar rest => ?_⟩
  obtain ⟨hword, hquote⟩ := ends_of_mem_delimiters hchar
  have hopen : (within lines indent tokens).step '"' =
      some ⟨lines, indent, tokens, .literal []⟩ := rfl
  have hclose : (⟨lines, indent, tokens, .literal text.toList⟩ : Scan).step '"' =
      some ⟨lines, indent, tokens ++ [.literal text], .closed⟩ := by
    unfold step
    simp
  have hend : (⟨lines, indent, tokens ++ [.literal text], .closed⟩ : Scan).step char =
      (within lines indent (tokens ++ [.literal text])).step char :=
    if_neg (by simp [hword, hquote])
  rw [toList_quote, List.cons_append, read_cons hopen, List.append_assoc,
    read_of_standsFor (standsFor_escaped text.toList), List.nil_append, List.singleton_append,
    read_cons hclose]
  exact read_cons_congr hend rest

end ToolchainMerge.Starlark
