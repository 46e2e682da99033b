import Mathlib.Computability.Language
import ToolchainMerge.Proofs.JsonText

/-!
# The texts of a tree

`Json.texts` is the grammar of JSON: for every tree the language of its texts, with any blanks
between the tokens, any of the escapes that a character has, and any form of a number that has
the same digits.  A tree with a fault has no texts.

A reader may take any of these texts for the tree (`Document.ofText_of_mem_texts`).  The texts
that `Json.render` writes and those that differ from them in blanks are only some of them.

## Strategy

The grammar puts languages behind each other, and so does the proof.  `Lexes language tokens`
says that behind a text of the language the lexer has the tokens, but may be waiting for the
character that ends a number; after a comma, a colon or a bracket it waits for nothing
(`Closes`).  The two relations are closed under the ways in which the grammar combines
languages, and `lexes_texts` follows the recursion of `texts`.
-/

namespace ToolchainMerge.Json

/-! ## The grammar -/

/-- Any number of blanks. -/
def blank : Language Char :=
  {chars | ∀ char ∈ chars, char ∈ blanks}

/-- The texts of a language between blanks. -/
def spaced (language : Language Char) : Language Char :=
  blank * language * blank

/-- The texts of a string between quotes. -/
def Literal.texts (literal : Literal) : Language Char :=
  {chars | literal.stop = none ∧
    ∃ inner, Piece.Texts literal.pieces inner ∧ chars = '"' :: (inner ++ ['"'])}

/-- The texts of a number. -/
def Number.texts (number : Number) : Language Char :=
  {chars | number.IsText chars}

mutual

/-- The texts of a tree. -/
def texts : Json → Language Char
  | .null => spaced {['n', 'u', 'l', 'l']}
  | .bool true => spaced {['t', 'r', 'u', 'e']}
  | .bool false => spaced {['f', 'a', 'l', 's', 'e']}
  | .number value => spaced value.texts
  | .string literal => spaced literal.texts
  | .array items none => spaced ({['[']} * itemTexts items * {[']']})
  | .object members none => spaced ({['{']} * memberTexts members * {['}']})
  | .array _ (some _) | .object _ (some _) | .cutNumber | .missing _ => 0

/-- The texts of the items of an array, with commas between them. -/
def itemTexts : List Json → Language Char
  | [] => blank
  | [item] => texts item
  | item :: next :: items => texts item * {[',']} * itemTexts (next :: items)

/-- The texts of the members of an object, with commas between them. -/
def memberTexts : List (Literal × Json) → Language Char
  | [] => blank
  | [(key, value)] => spaced key.texts * {[':']} * texts value
  | (key, value) :: next :: members =>
      spaced key.texts * {[':']} * texts value * {[',']} * memberTexts (next :: members)

end

/-! ## Trees that have texts -/

section Parts

variable {first second third language : Language Char} {chars : List Char}

theorem exists_mem_of_mem_mul (hchars : chars ∈ first * second) :
    (∃ left, left ∈ first) ∧ ∃ right, right ∈ second := by
  obtain ⟨left, hleft, right, hright, _⟩ := Language.mem_mul.mp hchars
  exact ⟨⟨left, hleft⟩, right, hright⟩

theorem exists_mem_of_mem_mul_mul (hchars : chars ∈ first * second * third) :
    (∃ left, left ∈ first) ∧ (∃ middle, middle ∈ second) ∧ ∃ right, right ∈ third := by
  obtain ⟨⟨_, hfront⟩, hright⟩ := exists_mem_of_mem_mul hchars
  obtain ⟨hleft, hmiddle⟩ := exists_mem_of_mem_mul hfront
  exact ⟨hleft, hmiddle, hright⟩

theorem exists_mem_of_mem_spaced (hchars : chars ∈ spaced language) : ∃ inner, inner ∈ language :=
  (exists_mem_of_mem_mul_mul hchars).2.1

theorem stop_eq_none_of_mem_texts {literal : Literal} (hchars : chars ∈ spaced literal.texts) :
    literal.stop = none := by
  obtain ⟨_, hstop, _⟩ := exists_mem_of_mem_spaced hchars
  exact hstop

end Parts

mutual

/-- A tree that has a text has no fault. -/
theorem wellFormed_of_mem_texts : (json : Json) → ∀ chars ∈ json.texts, json.WellFormed
  | .null, _, _ => .null
  | .bool value, _, _ => .bool value
  | .number value, _, _ => .number value
  | .string ⟨pieces, stop⟩, _, hchars => by
      rw [texts] at hchars
      obtain rfl : stop = none := stop_eq_none_of_mem_texts hchars
      exact .string pieces
  | .array items none, _, hchars => by
      rw [texts] at hchars
      obtain ⟨_, hinner⟩ := exists_mem_of_mem_spaced hchars
      obtain ⟨_, ⟨inner, hitems⟩, _⟩ := exists_mem_of_mem_mul_mul hinner
      exact .array (wellFormed_of_mem_itemTexts items inner hitems)
  | .object members none, _, hchars => by
      rw [texts] at hchars
      obtain ⟨_, hinner⟩ := exists_mem_of_mem_spaced hchars
      obtain ⟨_, ⟨inner, hmembers⟩, _⟩ := exists_mem_of_mem_mul_mul hinner
      have hall := wellFormed_of_mem_memberTexts members inner hmembers
      exact .object (fun member hmember => (hall member hmember).1)
        fun member hmember => (hall member hmember).2
  | .array _ (some _), _, hchars | .object _ (some _), _, hchars | .cutNumber, _, hchars |
    .missing _, _, hchars => absurd hchars (Language.notMem_zero _)

theorem wellFormed_of_mem_itemTexts : (items : List Json) → ∀ chars ∈ itemTexts items,
    ∀ item ∈ items, item.WellFormed
  | [], _, _ => List.forall_mem_nil _
  | [item], chars, hchars => by
      rw [itemTexts] at hchars
      exact List.forall_mem_singleton.mpr (wellFormed_of_mem_texts item chars hchars)
  | item :: next :: items, _, hchars => by
      rw [itemTexts] at hchars
      obtain ⟨⟨first, hfirst⟩, _, rest, hrest⟩ := exists_mem_of_mem_mul_mul hchars
      exact List.forall_mem_cons.mpr ⟨wellFormed_of_mem_texts item first hfirst,
        wellFormed_of_mem_itemTexts (next :: items) rest hrest⟩

theorem wellFormed_of_mem_memberTexts : (members : List (Literal × Json)) →
    ∀ chars ∈ memberTexts members,
      ∀ member ∈ members, member.1.stop = none ∧ member.2.WellFormed
  | [], _, _ => List.forall_mem_nil _
  | [(key, value)], _, hchars => by
      rw [memberTexts] at hchars
      obtain ⟨⟨_, hkey⟩, _, text, hvalue⟩ := exists_mem_of_mem_mul_mul hchars
      exact List.forall_mem_singleton.mpr
        ⟨stop_eq_none_of_mem_texts hkey, wellFormed_of_mem_texts value text hvalue⟩
  | (key, value) :: next :: members, _, hchars => by
      rw [memberTexts] at hchars
      obtain ⟨⟨_, hfirst⟩, _, rest, hrest⟩ := exists_mem_of_mem_mul_mul hchars
      obtain ⟨⟨_, hkey⟩, _, text, hvalue⟩ := exists_mem_of_mem_mul_mul hfirst
      exact List.forall_mem_cons.mpr
        ⟨⟨stop_eq_none_of_mem_texts hkey, wellFormed_of_mem_texts value text hvalue⟩,
          wellFormed_of_mem_memberTexts (next :: members) rest hrest⟩

end

/-! ## The tokens of a text -/

namespace Lexer

variable {language : Language Char} {tokens : List Token}

/-- Behind a text of the language the tokens are complete, or they are at the next delimiter. -/
def Lexes (language : Language Char) (tokens : List Token) : Prop :=
  ∀ chars ∈ language, ∀ done,
    Settled (tokens.reverse ++ done) (chars.foldl step ⟨done, .between⟩)

/-- Behind a text of the language the lexer is between two tokens. -/
def Closes (language : Language Char) (tokens : List Token) : Prop :=
  ∀ chars ∈ language, ∀ done,
    chars.foldl step ⟨done, .between⟩ = ⟨tokens.reverse ++ done, .between⟩

theorem Closes.lexes (hlanguage : Closes language tokens) : Lexes language tokens := by
  intro chars hchars done
  rw [hlanguage chars hchars done]
  exact settled_between _

theorem closes_blank : Closes blank [] := by
  intro chars hchars done
  induction chars with
  | nil => rfl
  | cons char chars ih =>
      obtain ⟨hblank, hrest⟩ := List.forall_mem_cons.mp hchars
      rw [List.foldl_cons]
      have hstep : step ⟨done, .between⟩ char = ⟨done, .between⟩ := start_of_mem_blanks hblank done
      rw [hstep]
      exact ih hrest

theorem closes_token (token : Token) (htoken : token.IsPlain) :
    Closes {token.render} [token] := by
  rintro _ rfl done
  exact foldl_step_token htoken done

theorem Closes.mul (hlanguage : Closes language tokens) {second : Language Char}
    {others : List Token} (hsecond : Lexes second others) :
    Lexes (language * second) (tokens ++ others) := by
  intro chars hchars done
  obtain ⟨left, hleft, right, hright, rfl⟩ := Language.mem_mul.mp hchars
  rw [List.foldl_append, hlanguage left hleft, List.reverse_append, List.append_assoc]
  exact hsecond right hright _

theorem Lexes.mul_blank (hlanguage : Lexes language tokens) : Lexes (language * blank) tokens := by
  intro chars hchars done
  obtain ⟨left, hleft, right, hright, rfl⟩ := Language.mem_mul.mp hchars
  rw [List.foldl_append]
  exact (hlanguage left hleft done).foldl_blanks hright

theorem Lexes.spaced (hlanguage : Lexes language tokens) : Lexes (spaced language) tokens :=
  (closes_blank.mul hlanguage).mul_blank

/-- A delimiter completes what stands in front of it. -/
theorem Lexes.mul_delimiter (hlanguage : Lexes language tokens) {char : Char} {token : Token}
    (hchar : char ∈ delimiters) (htoken : ∀ done, start done char = ⟨token :: done, .between⟩) :
    Closes (language * {[char]}) (tokens ++ [token]) := by
  intro chars hchars done
  obtain ⟨left, hleft, right, hright, rfl⟩ := Language.mem_mul.mp hchars
  obtain rfl : right = [char] := hright
  rw [List.foldl_append, List.reverse_append]
  show step (left.foldl step ⟨done, .between⟩) char = _
  rw [(hlanguage left hleft done).step char hchar, htoken]
  rfl

theorem Lexes.mul_comma (hlanguage : Lexes language tokens) :
    Closes (language * {[',']}) (tokens ++ [.comma]) :=
  hlanguage.mul_delimiter (by decide) fun _ => rfl

theorem Lexes.mul_colon (hlanguage : Lexes language tokens) :
    Closes (language * {[':']}) (tokens ++ [.colon]) :=
  hlanguage.mul_delimiter (by decide) fun _ => rfl

theorem lexes_number (number : Number) : Lexes number.texts [.number number] := by
  intro chars hchars done
  obtain ⟨phase, hphase, hread⟩ := foldl_step_number hchars done
  rw [hread]
  exact settled_number hphase number done

theorem lexes_literal (literal : Literal) : Lexes literal.texts [.string literal] := by
  rintro _ ⟨hstop, inner, hinner, rfl⟩ done
  obtain ⟨pieces, stop⟩ := literal
  obtain rfl : stop = none := hstop
  rw [foldl_step_string hinner]
  exact settled_between _

mutual

/-- **A text of a tree yields the tokens of the tree.** -/
theorem lexes_texts : (json : Json) → Lexes json.texts json.tokens
  | .null => (closes_token .null trivial).lexes.spaced
  | .bool true => (closes_token (.bool true) trivial).lexes.spaced
  | .bool false => (closes_token (.bool false) trivial).lexes.spaced
  | .number value => (lexes_number value).spaced
  | .string literal => (lexes_literal literal).spaced
  | .array items none =>
      have hopen := (closes_token .openBracket trivial).mul (lexes_itemTexts items)
      (hopen.mul_delimiter (by decide) fun _ => rfl).lexes.spaced
  | .object members none =>
      have hopen := (closes_token .openBrace trivial).mul (lexes_memberTexts members)
      (hopen.mul_delimiter (by decide) fun _ => rfl).lexes.spaced
  | .array _ (some _) | .object _ (some _) | .cutNumber | .missing _ =>
      fun _ hchars => absurd hchars (Language.notMem_zero _)

theorem lexes_itemTexts : (items : List Json) → Lexes (itemTexts items) (itemTokens items)
  | [] => closes_blank.lexes
  | [item] => lexes_texts item
  | item :: next :: items => by
      rw [itemTexts, itemTokens, List.append_cons]
      exact (lexes_texts item).mul_comma.mul (lexes_itemTexts (next :: items))

theorem lexes_memberTexts : (members : List (Literal × Json)) →
    Lexes (memberTexts members) (memberTokens members)
  | [] => closes_blank.lexes
  | [(key, value)] => (lexes_literal key).spaced.mul_colon.mul (lexes_texts value)
  | (key, value) :: next :: members => by
      rw [memberTexts, memberTokens, List.append_cons]
      have hfirst := (lexes_literal key).spaced.mul_colon.mul (lexes_texts value)
      exact hfirst.mul_comma.mul (lexes_memberTexts (next :: members))

end

end Lexer

/-- **Every text of a tree is read as that tree.** -/
theorem Document.ofText_of_mem_texts {json : Json} {text : String}
    (htext : text.toList ∈ json.texts) : Document.ofText text = ⟨json, false⟩ := by
  have htokens : Token.ofText text = json.tokens := by
    rw [Token.ofText, (Lexer.lexes_texts json text.toList htext []).finish, List.append_nil,
      List.reverse_reverse]
  rw [Document.ofText, htokens,
    Document.ofTokens_tokens (wellFormed_of_mem_texts json text.toList htext)]

end ToolchainMerge.Json
