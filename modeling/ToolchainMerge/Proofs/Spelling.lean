import ToolchainMerge.Proofs.JsonText

/-!
# The spellings of a record

A record can be written in JSON in many ways.  `Spelling` says which trees stand for which
values, without regard to how they are read.

* A `FieldRule` is what the format lays down for one field: the names under which it may be
  given, the trees that give it a value, and when it may be left out.
* `SpelledMembers` goes through the members of an object.  Each of them has a name that decodes to
  a string, and it gives one of the fields that are still to come, whichever it is, or it belongs
  to no field at all.  At the end the fields that did not come must be ones that may be left out.
* In an array the fields stand in the order of the rules, without names, and some fields at the
  end may be missing.

A record may be an object here and an array there, at every place where it occurs.

All this is relative to a number of levels, the arrays and objects that may still be opened.
They count along the fields of records.  A member that belongs to no field may be nested as
deeply as it likes.
-/

namespace ToolchainMerge.Json

/-! ## Strings -/

namespace Literal

/-- The characters that pieces of a string stand for, where two halves make up one. -/
inductive Means : List Piece → List Char → Prop
  | nil : Means [] []
  | char (char : Char) {pieces : List Piece} {chars : List Char} (hrest : Means pieces chars) :
      Means (.char char :: pieces) (char :: chars)
  | pair {high low : Nat} {char : Char} (hhigh : 0xD800 ≤ high ∧ high < 0xDC00)
      (hlow : 0xDC00 ≤ low ∧ low < 0xE000)
      (hchar : char.toNat = 0x10000 + (high - 0xD800) * 0x400 + (low - 0xDC00))
      {pieces : List Piece} {chars : List Char} (hrest : Means pieces chars) :
      Means (.surrogate high :: .surrogate low :: pieces) (char :: chars)

/-- A complete string whose characters are those of a text. -/
def Says (literal : Literal) (text : String) : Prop :=
  literal.stop = none ∧ Means literal.pieces text.toList

end Literal

/-! ## Values -/

/-- Which trees stand for a value, given how many arrays and objects may be opened in them. -/
abbrev Spelling (α : Type) :=
  Nat → α → Json → Prop

variable {ρ α : Type}

namespace Spelling

/-- A text is spelled by every string that says it, however its characters are escaped. -/
def string : Spelling String := fun _ text json =>
  ∃ literal, json = .string literal ∧ literal.Says text

/-- A Boolean is spelled in one way only. -/
def bool : Spelling Bool := fun _ value json =>
  json = .bool value

/-- The items of a list, one level deeper. -/
def list (item : Spelling α) : Spelling (List α)
  | 0, _, _ => False
  | levels + 1, values, json =>
      ∃ items, json = .array items none ∧ List.Forall₂ (item levels) values items

end Spelling

/-! ## Records -/

/-- What is laid down for a field of a record. -/
structure FieldRule (ρ : Type) where
  names : List String
  /-- The trees that give the field its value in a record. -/
  spelled : Spelling ρ
  /-- The records in which the field may be left out. -/
  Omissible : ρ → Prop

namespace FieldRule

/-- A field that is never left out. -/
def mandatory (names : List String) (spelling : Spelling α) (get : ρ → α) : FieldRule ρ where
  names := names
  spelled levels record := spelling levels (get record)
  Omissible _ := False

/-- A field that may be left out where it has its default. -/
def defaulted (names : List String) (spelling : Spelling α) (default : α) (get : ρ → α) :
    FieldRule ρ where
  names := names
  spelled levels record := spelling levels (get record)
  Omissible record := get record = default

/-- A field that may be without a value.  Then it is left out, or `null` is given. -/
def optional (names : List String) (spelling : Spelling α) (get : ρ → Option α) :
    FieldRule ρ where
  names := names
  spelled levels record json :=
    match get record with
    | some value => spelling levels value json
    | none => json = .null
  Omissible record := get record = none

end FieldRule

/-- The members of an object that spell a record, of whose fields those of `pending` have not
come so far. -/
inductive SpelledMembers (rules : List (FieldRule ρ)) (levels : Nat) (record : ρ) :
    List (FieldRule ρ) → List (Literal × Json) → Prop
  | done {pending : List (FieldRule ρ)} (hpending : ∀ rule ∈ pending, rule.Omissible record) :
      SpelledMembers rules levels record pending []
  /-- A field comes, under any of its names, and does not come again. -/
  | field {before after : List (FieldRule ρ)} {rule : FieldRule ρ} {key : Literal} {name : String}
      {value : Json} {members : List (Literal × Json)} (hkey : key.Says name)
      (hname : name ∈ rule.names) (hvalue : rule.spelled levels record value)
      (hrest : SpelledMembers rules levels record (before ++ after) members) :
      SpelledMembers rules levels record (before ++ rule :: after) ((key, value) :: members)
  /-- A member that belongs to no field holds anything.  Its name still has to decode to a string,
  so it must not have half of a character alone in it. -/
  | other {pending : List (FieldRule ρ)} {key : Literal} {name : String} {value : Json}
      {members : List (Literal × Json)} (hkey : key.Says name)
      (hname : ∀ rule ∈ rules, name ∉ rule.names) (hvalue : value.WellFormed)
      (hrest : SpelledMembers rules levels record pending members) :
      SpelledMembers rules levels record pending ((key, value) :: members)

/-- The field that comes may be any of those that are still to come. -/
theorem SpelledMembers.field_at {rules pending : List (FieldRule ρ)} {levels : Nat} {record : ρ}
    {members : List (Literal × Json)} (index : Nat) {rule : FieldRule ρ}
    (hrule : pending[index]? = some rule) {key : Literal} {name : String} {value : Json}
    (hkey : key.Says name) (hname : name ∈ rule.names) (hvalue : rule.spelled levels record value)
    (hrest : SpelledMembers rules levels record (pending.eraseIdx index) members) :
    SpelledMembers rules levels record pending ((key, value) :: members) := by
  obtain ⟨hindex, rfl⟩ := List.getElem?_eq_some_iff.mp hrule
  have hpending : pending = pending.take index ++ pending[index] :: pending.drop (index + 1) := by
    rw [List.getElem_cons_drop, List.take_append_drop]
  rw [List.eraseIdx_eq_take_drop_succ] at hrest
  rw [hpending]
  exact .field hkey hname hvalue hrest

/-- The items of an array that spell a record. -/
def SpelledItems (rules : List (FieldRule ρ)) (levels : Nat) (record : ρ) (items : List Json) :
    Prop :=
  ∃ front back, rules = front ++ back ∧
    List.Forall₂ (fun rule item => rule.spelled levels record item) front items ∧
    ∀ rule ∈ back, rule.Omissible record

/-- Records whose fields follow the rules, which stand in the order of the fields. -/
def Spelling.record (rules : List (FieldRule ρ)) : Spelling ρ
  | 0, _, _ => False
  | levels + 1, record, json =>
      (∃ members, json = .object members none ∧
        SpelledMembers rules levels record rules members) ∨
      ∃ items, json = .array items none ∧ SpelledItems rules levels record items

/-! ## Spellings that are not `null` -/

namespace Spelling

/-- No value is spelled like the absence of one. -/
def NeverNull (spelling : Spelling α) : Prop :=
  ∀ levels value, ¬ spelling levels value .null

theorem neverNull_string : string.NeverNull := by
  rintro levels text ⟨literal, hjson, _⟩
  exact nomatch hjson

theorem neverNull_record (rules : List (FieldRule ρ)) : (record rules).NeverNull := by
  rintro (_ | levels) value hspelled
  · exact hspelled
  · rcases hspelled with ⟨_, hjson, _⟩ | ⟨_, hjson, _⟩ <;> exact nomatch hjson

end Spelling

end ToolchainMerge.Json
