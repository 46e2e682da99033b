import Mathlib
import ToolchainMerge.Proofs.Declaration

/-!
# The shape of identifiers

Names are arbitrary, variables are not.  A stem consists of lower-case letters, digits and
underscores, without a digit in front (`IsStem`).  Every text of this kind is a stem, namely its
own, so taking stems projects names onto them (`identifierStem_projects`).

Only a name without characters has a stem that cannot stand alone
(`isLowerIdentifier_identifierStem`).  The suffix of an item makes up for that one, so every
name has a variable of the right shape (`Family.isLowerIdentifier_identifier`).
-/

namespace ToolchainMerge

/-- A lower-case letter or an underscore. -/
def isLowerStart (char : Char) : Bool :=
  char.isLower || char = '_'

/-- A lower-case letter, an underscore or a digit. -/
def isLowerNameChar (char : Char) : Bool :=
  isLowerStart char || char.isDigit

/-- Lower-case letters, digits and underscores, no digit in front. -/
def isLowerIdentifier : List Char → Bool
  | [] => false
  | first :: rest => isLowerStart first && rest.all isLowerNameChar

theorem isLowerNameChar_of_isLowerStart {char : Char} (hstart : isLowerStart char = true) :
    isLowerNameChar char = true := by
  rw [isLowerNameChar, hstart, Bool.true_or]

theorem all_of_isLowerIdentifier {chars : List Char} (hchars : isLowerIdentifier chars = true) :
    chars.all isLowerNameChar = true := by
  cases chars with
  | nil => rfl
  | cons first rest =>
      rw [isLowerIdentifier, Bool.and_eq_true] at hchars
      rw [List.all_cons, isLowerNameChar_of_isLowerStart hchars.1, hchars.2]
      rfl

theorem isLowerIdentifier_append {chars others : List Char}
    (hchars : isLowerIdentifier chars = true) (hothers : isLowerIdentifier others = true) :
    isLowerIdentifier (chars ++ others) = true := by
  cases chars with
  | nil => exact hothers
  | cons first rest =>
      rw [isLowerIdentifier, Bool.and_eq_true] at hchars
      rw [List.cons_append, isLowerIdentifier, List.all_append, hchars.1, hchars.2,
        all_of_isLowerIdentifier hothers]
      rfl

/-! ## Characters of stems -/

theorem isDigit_of_isLowerStart {char : Char} (hstart : isLowerStart char = true) :
    char.isDigit = false := by
  rw [isLowerStart, Bool.or_eq_true, decide_eq_true_eq] at hstart
  rcases hstart with hlower | rfl
  · grind [Char.isLower, Char.isDigit]
  · rfl

theorem identifierChar_of_isAlphanum {char : Char} (halphanum : char.isAlphanum = true)
    (hupper : ¬ char.isUpper = true) : identifierChar char = char := by
  have hplus : char ≠ '+' := by
    rintro rfl
    exact absurd halphanum (by decide)
  rw [identifierChar, if_neg hplus, if_pos halphanum, Char.toLower_eq_of_not_isUpper hupper]

theorem identifierChar_of_isDigit {char : Char} (hdigit : char.isDigit = true) :
    identifierChar char = char := by
  refine identifierChar_of_isAlphanum ?_ ?_
  · rw [Char.isAlphanum, hdigit, Bool.or_true]
  · grind [Char.isUpper, Char.isDigit]

/-- A character of a stem is a lower-case letter, an underscore or a digit of the name. -/
theorem identifierChar_cases (char : Char) :
    isLowerStart (identifierChar char) = true ∨
      char.isDigit = true ∧ identifierChar char = char := by
  unfold identifierChar
  split_ifs with hplus halphanum
  · exact Or.inl rfl
  · rw [Char.isAlphanum, Bool.or_eq_true] at halphanum
    by_cases halpha : char.isAlpha = true
    · rw [isLowerStart, Char.isLower_toLower_eq_isAlpha, halpha]
      exact Or.inl rfl
    · have hupper : ¬ char.isUpper = true := fun hupper =>
        halpha (by rw [Char.isAlpha, hupper, Bool.true_or])
      exact Or.inr ⟨halphanum.resolve_left halpha, Char.toLower_eq_of_not_isUpper hupper⟩
  · exact Or.inl rfl

theorem isLowerNameChar_identifierChar (char : Char) :
    isLowerNameChar (identifierChar char) = true := by
  rcases identifierChar_cases char with hstart | ⟨hdigit, hchar⟩
  · exact isLowerNameChar_of_isLowerStart hstart
  · rw [hchar, isLowerNameChar, hdigit, Bool.or_true]

/-- Nothing becomes a digit but a digit. -/
theorem isDigit_identifierChar (char : Char) : (identifierChar char).isDigit = char.isDigit := by
  by_cases hdigit : char.isDigit = true
  · rw [identifierChar_of_isDigit hdigit]
  · have hstart := (identifierChar_cases char).resolve_right fun hkept => hdigit hkept.1
    rw [isDigit_of_isLowerStart hstart, Bool.eq_false_of_not_eq_true hdigit]

/-- The characters that stems consist of are those that stay as they are. -/
theorem identifierChar_eq_self_iff {char : Char} :
    identifierChar char = char ↔ isLowerNameChar char = true := by
  constructor
  · intro hchar
    rw [← hchar]
    exact isLowerNameChar_identifierChar char
  · intro hchar
    rw [isLowerNameChar, isLowerStart, Bool.or_eq_true, Bool.or_eq_true, decide_eq_true_eq] at hchar
    rcases hchar with (hlower | rfl) | hdigit
    · refine identifierChar_of_isAlphanum ?_ (Char.not_isUpper_of_isLower hlower)
      rw [Char.isAlphanum, Char.isAlpha, hlower, Bool.or_true, Bool.true_or]
    · rfl
    · exact identifierChar_of_isDigit hdigit

/-! ## Stems -/

/-- Whether a text starts with a digit. -/
def startsWithDigit (text : String) : Bool :=
  text.toList.head?.any Char.isDigit

/-- A text of lower-case letters, digits and underscores without a digit in front.  It may be
empty. -/
structure IsStem (text : String) : Prop where
  lowerNameChar_of_mem : ∀ char ∈ text.toList, isLowerNameChar char = true
  startsWithDigit_eq : startsWithDigit text = false

/-- The characters of a name stay in place, behind an underscore if the first is a digit. -/
theorem toList_identifierStem (name : String) :
    (identifierStem name).toList =
      (if startsWithDigit name then ['_'] else []) ++ name.toList.map identifierChar := by
  unfold identifierStem startsWithDigit
  split
  · rename_i hname
    rw [hname]
    rfl
  · rename_i first rest hname
    rw [hname, List.head?_cons, Option.any_some, String.toList_ofList]
    split_ifs <;> rfl

theorem isStem_identifierStem (name : String) : IsStem (identifierStem name) where
  lowerNameChar_of_mem := by
    rw [toList_identifierStem]
    refine List.forall_mem_append.mpr ⟨?_, List.forall_mem_map.mpr fun char _ =>
      isLowerNameChar_identifierChar char⟩
    split_ifs
    · exact List.forall_mem_singleton.mpr rfl
    · exact List.forall_mem_nil _
  startsWithDigit_eq := by
    by_cases hdigit : startsWithDigit name = true
    · rw [startsWithDigit, toList_identifierStem, if_pos hdigit]
      rfl
    · -- the first character is a digit only if that of the name is
      rw [startsWithDigit, toList_identifierStem, if_neg hdigit, List.nil_append, List.head?_map,
        Option.any_map]
      simp only [isDigit_identifierChar]
      exact Bool.eq_false_of_not_eq_true hdigit

/-- **The texts that are their own stems.** -/
theorem identifierStem_eq_self_iff {name : String} : identifierStem name = name ↔ IsStem name := by
  constructor
  · intro hname
    rw [← hname]
    exact isStem_identifierStem name
  · intro hstem
    have hchars : ∀ char ∈ name.toList, identifierChar char = char := fun char hchar =>
      identifierChar_eq_self_iff.mpr (hstem.lowerNameChar_of_mem char hchar)
    rw [← String.toList_inj, toList_identifierStem, hstem.startsWithDigit_eq,
      List.map_congr_left hchars, List.map_id']
    rfl

theorem length_identifierStem (name : String) :
    (identifierStem name).length = name.length + if startsWithDigit name then 1 else 0 := by
  rw [← String.length_toList, ← String.length_toList, toList_identifierStem, List.length_append,
    List.length_map, Nat.add_comm]
  split_ifs <;> rfl

/-- **Taking stems is a projection.**  Every stem has the shape of stems, and of the texts that
have it each is its own stem.  A stem is as long as the name but for the underscore that stands
in front of a digit. -/
theorem identifierStem_projects (name : String) :
    IsStem (identifierStem name) ∧ (identifierStem name = name ↔ IsStem name) ∧
      identifierStem (identifierStem name) = identifierStem name ∧
      (identifierStem name).length = name.length + if startsWithDigit name then 1 else 0 :=
  have hstem := isStem_identifierStem name
  ⟨hstem, identifierStem_eq_self_iff, identifierStem_eq_self_iff.mpr hstem,
    length_identifierStem name⟩

/-- A stem with a character is an identifier. -/
theorem isLowerIdentifier_of_isStem {text : String} (hstem : IsStem text) (htext : text ≠ "") :
    isLowerIdentifier text.toList = true := by
  obtain ⟨hchars, hdigit⟩ := hstem
  obtain ⟨first, rest, hfirst⟩ := List.exists_cons_of_ne_nil (mt String.toList_eq_nil_iff.mp htext)
  rw [startsWithDigit, hfirst, List.head?_cons, Option.any_some] at hdigit
  rw [hfirst, List.forall_mem_cons, isLowerNameChar, hdigit, Bool.or_false] at hchars
  rw [hfirst, isLowerIdentifier, hchars.1, Bool.true_and]
  exact List.all_eq_true.mpr hchars.2

theorem isLowerIdentifier_identifierStem {name : String} (hname : name ≠ "") :
    isLowerIdentifier (identifierStem name).toList = true := by
  refine isLowerIdentifier_of_isStem (isStem_identifierStem name) fun hempty => hname ?_
  have hchars := congrArg String.toList hempty
  rw [toList_identifierStem] at hchars
  exact String.toList_eq_nil_iff.mp (List.map_eq_nil_iff.mp (List.append_eq_nil_iff.mp hchars).2)

/-! ## Variables of items -/

/-- The variable of an item is an identifier, whatever the item is called. -/
theorem Family.isLowerIdentifier_identifier {α : Type} (family : Family α) (name : String) :
    isLowerIdentifier (family.identifier name).toList = true := by
  have hsuffix : isLowerIdentifier family.kind.suffix.toList = true := by
    cases family.kind <;> decide
  rw [identifier, String.toList_append]
  by_cases hname : name = ""
  · rw [hname]
    exact hsuffix
  · exact isLowerIdentifier_append (isLowerIdentifier_identifierStem hname) hsuffix

end ToolchainMerge
