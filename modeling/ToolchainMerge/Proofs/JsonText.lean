import Mathlib.Data.List.Basic
import ToolchainMerge.Json.Parser
import ToolchainMerge.Json.Printer
import ToolchainMerge.Proofs.JsonToken

/-!
# Written JSON is read back

A tree that is written as text is found again when the text is read, whatever blanks are put
between its tokens: neither the pass over characters nor the pass over tokens loses anything.

## Strategy

`Json.tokens` stands between a tree and its texts.

* `Spells tokens chars` says that a text consists of the tokens with blanks around them.  No
  token of a plain tree needs to see what follows it, so the lexer is between two tokens again
  behind each of them (`foldl_step_token`), and a whole text yields its tokens
  (`foldl_step_of_spells`).
* The builder, given the tokens of a value, goes on behind that value (`builds_of_wellFormed`, an
  induction over the tree).  What is open around the value does not matter, so the items of an
  array and the members of an object can be taken one after another.

`Document.ofText_of_spells` puts both together.  The text without blanks that `Json.render`
writes is one of these texts (`spells_render`).
-/

namespace ToolchainMerge.Json

open Text

/-! ## Trees without faults -/

/-- A tree without faults whose strings are made of characters.  Numbers are left out: they
alone are not complete before the next character. -/
inductive Plain : Json → Prop
  | null : Plain .null
  | bool (value : Bool) : Plain (.bool value)
  | string (text : String) : Plain (.string (.ofString text))
  | array {items : List Json} (hitems : ∀ item ∈ items, Plain item) : Plain (.array items none)
  | object {members : List (Literal × Json)}
      (hkeys : ∀ member ∈ members, ∃ name, member.1 = .ofString name)
      (hvalues : ∀ member ∈ members, Plain member.2) : Plain (.object members none)

/-- A tree without faults.  What its strings mean does not matter. -/
inductive WellFormed : Json → Prop
  | null : WellFormed .null
  | bool (value : Bool) : WellFormed (.bool value)
  | number (value : Number) : WellFormed (.number value)
  | string (pieces : List Piece) : WellFormed (.string ⟨pieces, none⟩)
  | array {items : List Json} (hitems : ∀ item ∈ items, WellFormed item) :
      WellFormed (.array items none)
  | object {members : List (Literal × Json)} (hkeys : ∀ member ∈ members, member.1.stop = none)
      (hvalues : ∀ member ∈ members, WellFormed member.2) : WellFormed (.object members none)

theorem Plain.wellFormed {json : Json} (hplain : json.Plain) : json.WellFormed := by
  induction hplain with
  | null => exact .null
  | bool value => exact .bool value
  | string text => exact .string _
  | array _ ih => exact .array ih
  | object hkeys _ ih =>
      refine .object (fun member hmember => ?_) ih
      obtain ⟨name, hname⟩ := hkeys member hmember
      rw [hname]
      rfl

theorem itemsFault?_eq_none_iff {items : List Json} :
    itemsFault? items = none ↔ ∀ item ∈ items, item.fault? = none := by
  induction items with
  | nil => simp [itemsFault?]
  | cons item items ih => rw [itemsFault?, Option.or_eq_none_iff, ih, List.forall_mem_cons]

theorem membersFault?_eq_none_iff {members : List (Literal × Json)} :
    membersFault? members = none ↔
      ∀ member ∈ members, member.1.stop = none ∧ member.2.fault? = none := by
  induction members with
  | nil => simp [membersFault?]
  | cons member members ih =>
      rw [membersFault?, Option.or_eq_none_iff, Option.or_eq_none_iff, ih, List.forall_mem_cons,
        and_assoc]

theorem fault?_of_wellFormed {json : Json} (hjson : json.WellFormed) : json.fault? = none := by
  induction hjson with
  | null | bool _ | number _ | string _ => rfl
  | array _ ih =>
      rw [fault?, Option.or_eq_none_iff]
      exact ⟨itemsFault?_eq_none_iff.mpr ih, rfl⟩
  | object hkeys _ ih =>
      rw [fault?, Option.or_eq_none_iff]
      refine ⟨membersFault?_eq_none_iff.mpr fun member hmember => ?_, rfl⟩
      exact ⟨hkeys member hmember, ih member hmember⟩

mutual

/-- The tokens of a tree. -/
def tokens : Json → List Token
  | .null => [.null]
  | .bool value => [.bool value]
  | .number value => [.number value]
  | .cutNumber => [.cutNumber]
  | .string literal => [.string literal]
  | .array items _ => .openBracket :: (itemTokens items ++ [.closeBracket])
  | .object members _ => .openBrace :: (memberTokens members ++ [.closeBrace])
  | .missing fault => [.fault fault]

/-- The tokens of the items of an array, with commas between them. -/
def itemTokens : List Json → List Token
  | [] => []
  | [item] => tokens item
  | item :: next :: items => tokens item ++ .comma :: itemTokens (next :: items)

/-- The tokens of the members of an object, with commas between them. -/
def memberTokens : List (Literal × Json) → List Token
  | [] => []
  | [(key, value)] => .string key :: .colon :: tokens value
  | (key, value) :: next :: members =>
      .string key :: .colon :: (tokens value ++ .comma :: memberTokens (next :: members))

end

/-! ## Texts -/

/-- The characters of a token. -/
def Token.render : Token → List Char
  | .openBrace => ['{']
  | .closeBrace => ['}']
  | .openBracket => ['[']
  | .closeBracket => [']']
  | .comma => [',']
  | .colon => [':']
  | .null => ['n', 'u', 'l', 'l']
  | .bool true => ['t', 'r', 'u', 'e']
  | .bool false => ['f', 'a', 'l', 's', 'e']
  | .number value => value.render.toList
  | .string literal => literal.render.toList
  | .cutNumber | .fault _ => []

/-- A text that consists of tokens, with any number of blanks around them. -/
inductive Spells : List Token → List Char → Prop
  | nil : Spells [] []
  | blank {char : Char} {tokens : List Token} {chars : List Char} (hblank : char ∈ blanks)
      (hrest : Spells tokens chars) : Spells tokens (char :: chars)
  | token (token : Token) {tokens : List Token} {chars : List Char}
      (hrest : Spells tokens chars) : Spells (token :: tokens) (token.render ++ chars)

theorem Spells.append {tokens others : List Token} {chars chars' : List Char}
    (hchars : Spells tokens chars) (hchars' : Spells others chars') :
    Spells (tokens ++ others) (chars ++ chars') := by
  induction hchars with
  | nil => exact hchars'
  | blank hblank _ ih => exact .blank hblank ih
  | token token _ ih =>
      rw [List.cons_append, List.append_assoc]
      exact .token token ih

theorem spells_token (token : Token) : Spells [token] token.render := by
  have htoken := Spells.token token .nil
  rwa [List.append_nil] at htoken

/-- Tokens that are complete with their last character. -/
def Token.IsPlain : Token → Prop
  | .string literal => ∃ text, literal = .ofString text
  | .number _ | .cutNumber | .fault _ => False
  | _ => True

/-! ## The pass over characters -/

namespace Lexer

/-- A code unit below `0x10000` is escaped by four digits. -/
theorem isCodeUnit_unicodeEscape {unit : Nat} (hunit : unit < 0x10000) :
    ∃ digits, unicodeEscape unit = '\\' :: 'u' :: digits ∧ IsCodeUnit unit digits := by
  have hdigit : ∀ value, IsHexDigit (value % 16) (hexDigit (value % 16)) := fun value =>
    ⟨Nat.mod_lt value (by decide), Or.inl rfl⟩
  have hvalue : ((unit / 0x1000 % 16 * 16 + unit / 0x100 % 16) * 16 + unit / 0x10 % 16) * 16 +
      unit % 16 = unit := by
    omega
  have hdigits := IsCodeUnit.digits (hdigit (unit / 0x1000)) (hdigit (unit / 0x100))
    (hdigit (unit / 0x10)) (hdigit unit)
  rw [hvalue] at hdigits
  exact ⟨_, rfl, hdigits⟩

/-- A character of a string is written as one of its texts. -/
theorem text_render (char : Char) : Piece.Text (.char char) (Piece.render (.char char)) := by
  by_cases hletter : char ∈ ['"', '\\', '\x08', '\x0c', '\n', '\r', '\t']
  · simp only [List.mem_cons, List.not_mem_nil, or_false] at hletter
    rcases hletter with rfl | rfl | rfl | rfl | rfl | rfl | rfl <;>
      exact .named (by decide)
  · simp only [List.mem_cons, List.not_mem_nil, or_false, not_or] at hletter
    obtain ⟨hquote, hbackslash, hothers⟩ := hletter
    have hrender : Piece.render (.char char) =
        if char < ' ' then unicodeEscape char.toNat else [char] := by
      rw [Piece.render] <;> simp_all
    rw [hrender]
    split_ifs with hcontrol
    · have hunit : char.toNat < 32 := hcontrol
      have hbound : char.toNat < 0x10000 := by omega
      obtain ⟨digits, hescape, hdigits⟩ := isCodeUnit_unicodeEscape hbound
      rw [hescape]
      exact .codeUnit hdigits
    · exact .plain (Char.not_lt.mp hcontrol) hquote hbackslash

theorem texts_render (chars : List Char) :
    Piece.Texts (chars.map Piece.char) ((chars.map Piece.char).flatMap Piece.render) := by
  induction chars with
  | nil => exact .nil
  | cons char chars ih => exact .cons (text_render char) ih

/-- **One token.**  Behind a plain token the lexer is between two tokens again. -/
theorem foldl_step_token {token : Token} (htoken : token.IsPlain) (done : List Token) :
    token.render.foldl step ⟨done, .between⟩ = ⟨token :: done, .between⟩ := by
  cases token with
  | bool value => cases value <;> rfl
  | string literal =>
      obtain ⟨text, rfl⟩ := htoken
      have hrender : (Token.string (.ofString text)).render =
          '"' :: ((text.toList.map Piece.char).flatMap Piece.render ++ ['"']) := by
        simp [Token.render, Literal.render, Literal.ofString]
      rw [hrender, foldl_step_string (texts_render text.toList)]
      rfl
  | number value => exact htoken.elim
  | cutNumber => exact htoken.elim
  | fault fault => exact htoken.elim
  | openBrace | closeBrace | openBracket | closeBracket | comma | colon | null => rfl

/-- **A text yields its tokens.** -/
theorem foldl_step_of_spells {tokens : List Token} {chars : List Char}
    (hchars : Spells tokens chars) (hplain : ∀ token ∈ tokens, token.IsPlain)
    (done : List Token) :
    chars.foldl step ⟨done, .between⟩ = ⟨tokens.reverse ++ done, .between⟩ := by
  induction hchars generalizing done with
  | nil => rfl
  | @blank char tokens chars hblank _ ih =>
      have hstep : step ⟨done, .between⟩ char = ⟨done, .between⟩ :=
        start_of_mem_blanks hblank done
      rw [List.foldl_cons, hstep, ih hplain]
  | token token _ ih =>
      rw [List.forall_mem_cons] at hplain
      rw [List.foldl_append, foldl_step_token hplain.1, ih hplain.2, List.reverse_cons,
        List.append_assoc]
      rfl

end Lexer

/-! ## The pass over tokens -/

namespace Builder

/-- The tokens of a tree, read as a value, lead behind that value. -/
def Builds (json : Json) : Prop :=
  ∀ frames, json.tokens.foldl step (.reading .value frames) = resume json frames

theorem tokens_eq_cons (json : Json) :
    ∃ first rest, json.tokens = first :: rest ∧ first ≠ .closeBracket := by
  cases json <;> exact ⟨_, _, rfl, by simp⟩

theorem itemTokens_eq_cons (item : Json) (items : List Json) :
    ∃ first rest, itemTokens (item :: items) = first :: rest ∧ first ≠ .closeBracket := by
  obtain ⟨first, rest, htokens, hfirst⟩ := tokens_eq_cons item
  cases items with
  | nil => exact ⟨first, rest, htokens, hfirst⟩
  | cons next items =>
      refine ⟨first, rest ++ .comma :: itemTokens (next :: items), ?_, hfirst⟩
      rw [itemTokens, htokens, List.cons_append]

/-- The items of an array behind those that have been read. -/
theorem foldl_step_items {items : List Json} (hitems : ∀ item ∈ items, Builds item)
    (hne : items ≠ []) (done : List Json) (frames : List Frame) :
    (itemTokens items ++ [Token.closeBracket]).foldl step
        (.reading .value (.array done :: frames)) =
      resume (.array (done.reverse ++ items) none) frames := by
  induction items generalizing done with
  | nil => exact absurd rfl hne
  | cons item items ih =>
      rw [List.forall_mem_cons] at hitems
      cases items with
      | nil =>
          rw [itemTokens, List.foldl_append, hitems.1, ← List.reverse_cons]
          rfl
      | cons next items =>
          have hrest := ih hitems.2 (List.cons_ne_nil _ _) (item :: done)
          rw [itemTokens, List.append_assoc, List.foldl_append, hitems.1]
          simp only [List.reverse_cons, List.append_assoc, List.cons_append,
            List.nil_append] at hrest
          exact hrest

/-- The members of an object behind those that have been read. -/
theorem foldl_step_members {members : List (Literal × Json)}
    (hvalues : ∀ member ∈ members, Builds member.2) (hne : members ≠ [])
    (done : List (Literal × Json)) (frames : List Frame) :
    (memberTokens members ++ [Token.closeBrace]).foldl step (.reading (.key done) frames) =
      resume (.object (done.reverse ++ members) none) frames := by
  induction members generalizing done with
  | nil => exact absurd rfl hne
  | cons member members ih =>
      obtain ⟨key, value⟩ := member
      rw [List.forall_mem_cons] at hvalues
      have hcolon : ∀ tokens : List Token,
          (.string key :: .colon :: tokens).foldl step (.reading (.key done) frames) =
            tokens.foldl step (.reading .value (.object done key :: frames)) := fun _ => rfl
      cases members with
      | nil =>
          rw [memberTokens, List.cons_append, List.cons_append, hcolon, List.foldl_append,
            hvalues.1, ← List.reverse_cons]
          rfl
      | cons next members =>
          have hrest := ih hvalues.2 (List.cons_ne_nil _ _) ((key, value) :: done)
          rw [memberTokens, List.cons_append, List.cons_append, hcolon, List.append_assoc,
            List.foldl_append, hvalues.1]
          simp only [List.reverse_cons, List.append_assoc, List.cons_append,
            List.nil_append] at hrest
          exact hrest

/-- **Every tree is built from its tokens.** -/
theorem builds_of_wellFormed {json : Json} (hjson : json.WellFormed) : Builds json := by
  induction hjson with
  | null => exact fun _ => rfl
  | bool value => exact fun _ => rfl
  | number value => exact fun _ => rfl
  | string pieces => exact fun _ => rfl
  | @array items _ ih =>
      intro frames
      cases items with
      | nil => rfl
      | cons item items =>
          -- the first token of an item is that of a value, as it does not end the array
          obtain ⟨first, rest, htokens, hfirst⟩ := itemTokens_eq_cons item items
          have hstart : step (.reading .firstItem frames) first =
              step (.reading .value (.array [] :: frames)) first := by
            cases first <;> first | rfl | exact absurd rfl hfirst
          have hitems := foldl_step_items ih (List.cons_ne_nil _ _) [] frames
          rw [htokens, List.cons_append, List.foldl_cons, ← hstart, ← List.foldl_cons,
            ← List.cons_append, ← htokens] at hitems
          exact hitems
  | @object members _ _ ih =>
      intro frames
      cases members with
      | nil => rfl
      | cons member members =>
          have hmembers := foldl_step_members ih (List.cons_ne_nil _ _) [] frames
          obtain ⟨key, value⟩ := member
          cases members <;> exact hmembers

end Builder

/-! ## Whole texts -/

theorem forall_mem_itemTokens {property : Token → Prop} (hcomma : property .comma)
    {items : List Json} (hitems : ∀ item ∈ items, ∀ token ∈ item.tokens, property token) :
    ∀ token ∈ itemTokens items, property token := by
  induction items with
  | nil => exact List.forall_mem_nil _
  | cons item items ih =>
      rw [List.forall_mem_cons] at hitems
      cases items with
      | nil => exact hitems.1
      | cons next items =>
          exact List.forall_mem_append.mpr
            ⟨hitems.1, List.forall_mem_cons.mpr ⟨hcomma, ih hitems.2⟩⟩

theorem forall_mem_memberTokens {property : Token → Prop} (hcomma : property .comma)
    (hcolon : property .colon) {members : List (Literal × Json)}
    (hkeys : ∀ member ∈ members, property (.string member.1))
    (hvalues : ∀ member ∈ members, ∀ token ∈ member.2.tokens, property token) :
    ∀ token ∈ memberTokens members, property token := by
  induction members with
  | nil => exact List.forall_mem_nil _
  | cons member members ih =>
      rw [List.forall_mem_cons] at hkeys hvalues
      cases members with
      | nil =>
          exact List.forall_mem_cons.mpr ⟨hkeys.1, List.forall_mem_cons.mpr ⟨hcolon, hvalues.1⟩⟩
      | cons next members =>
          exact List.forall_mem_cons.mpr ⟨hkeys.1, List.forall_mem_cons.mpr ⟨hcolon,
            List.forall_mem_append.mpr ⟨hvalues.1,
              List.forall_mem_cons.mpr ⟨hcomma, ih hkeys.2 hvalues.2⟩⟩⟩⟩

theorem isPlain_of_mem_tokens {json : Json} (hplain : json.Plain) :
    ∀ token ∈ json.tokens, token.IsPlain := by
  induction hplain with
  | null => exact List.forall_mem_singleton.mpr trivial
  | bool value => exact List.forall_mem_singleton.mpr trivial
  | string text => exact List.forall_mem_singleton.mpr ⟨text, rfl⟩
  | array _ ih =>
      exact List.forall_mem_cons.mpr ⟨trivial, List.forall_mem_append.mpr
        ⟨forall_mem_itemTokens trivial ih, List.forall_mem_singleton.mpr trivial⟩⟩
  | object hkeys _ ih =>
      exact List.forall_mem_cons.mpr ⟨trivial, List.forall_mem_append.mpr
        ⟨forall_mem_memberTokens trivial trivial hkeys ih, List.forall_mem_singleton.mpr trivial⟩⟩

/-- Nothing is left behind a tree that is built from its tokens. -/
theorem Document.ofTokens_tokens {json : Json} (hjson : json.WellFormed) :
    Document.ofTokens json.tokens = ⟨json, false⟩ := by
  rw [Document.ofTokens, Builder.builds_of_wellFormed hjson]
  rfl

/-- **A plain tree is read back** from every text of its tokens. -/
theorem Document.ofText_of_spells {json : Json} (hplain : json.Plain) {text : String}
    (htext : Spells json.tokens text.toList) : Document.ofText text = ⟨json, false⟩ := by
  have htokens : Token.ofText text = json.tokens := by
    rw [Token.ofText, Lexer.foldl_step_of_spells htext (isPlain_of_mem_tokens hplain),
      List.append_nil, Lexer.finish, List.reverse_reverse]
  rw [Document.ofText, htokens, Document.ofTokens_tokens hplain.wellFormed]

/-! ## The text without blanks -/

theorem spells_renderItems {items : List Json}
    (hitems : ∀ item ∈ items, Spells item.tokens item.render.toList) :
    Spells (itemTokens items) (joined "," (renderItems items)).toList := by
  induction items with
  | nil => exact .nil
  | cons item items ih =>
      rw [List.forall_mem_cons] at hitems
      cases items with
      | nil => exact hitems.1
      | cons next items =>
          have hrest := (spells_token .comma).append (ih hitems.2)
          rw [itemTokens, renderItems, renderItems, joined, String.toList_append,
            String.toList_append, List.append_assoc]
          exact hitems.1.append hrest

theorem spells_renderMembers {members : List (Literal × Json)}
    (hvalues : ∀ member ∈ members, Spells member.2.tokens member.2.render.toList) :
    Spells (memberTokens members) (joined "," (renderMembers members)).toList := by
  have hmember : ∀ (key : Literal) (value : Json), Spells value.tokens value.render.toList →
      Spells (.string key :: .colon :: value.tokens)
        (key.render ++ ":" ++ value.render).toList := by
    intro key value hvalue
    rw [String.toList_append, String.toList_append, List.append_assoc]
    exact (spells_token (.string key)).append ((spells_token .colon).append hvalue)
  induction members with
  | nil => exact .nil
  | cons member members ih =>
      obtain ⟨key, value⟩ := member
      rw [List.forall_mem_cons] at hvalues
      cases members with
      | nil => exact hmember key value hvalues.1
      | cons next members =>
          have hrest := (spells_token .comma).append (ih hvalues.2)
          obtain ⟨key', value'⟩ := next
          rw [memberTokens, renderMembers, renderMembers, joined, String.toList_append,
            String.toList_append, List.append_assoc]
          exact (hmember key value hvalues.1).append hrest

/-- **What is written is a text of its tokens.** -/
theorem spells_render {json : Json} (hplain : json.Plain) :
    Spells json.tokens json.render.toList := by
  induction hplain with
  | null => exact spells_token .null
  | bool value => cases value <;> exact spells_token (.bool _)
  | string text => exact spells_token (.string _)
  | array _ ih =>
      rw [tokens, render, String.toList_append, String.toList_append, List.append_assoc]
      exact (spells_token .openBracket).append
        ((spells_renderItems ih).append (spells_token .closeBracket))
  | object _ _ ih =>
      rw [tokens, render, String.toList_append, String.toList_append, List.append_assoc]
      exact (spells_token .openBrace).append
        ((spells_renderMembers ih).append (spells_token .closeBrace))

end ToolchainMerge.Json
