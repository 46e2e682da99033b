import Mathlib.Data.List.Forall2
import ToolchainMerge.Json.Reader
import ToolchainMerge.Proofs.Spelling

/-!
# Lawful codecs

A codec is lawful for a spelling if it reads every spelling of a value as that value, and writes
one of them.  So what it writes is read back (`Codec.Lawful.read_write`).  The codecs of strings
and of Booleans are lawful, and that of lists is if the one of the items is.

What is written spells its value as long as its `depth`, the number of arrays and objects that are
open at once, does not exceed the levels that are left.
-/

namespace ToolchainMerge.Json

/-! ## Depth -/

mutual

/-- The number of arrays and objects that are open at once, at the most. -/
def depth : Json → Nat
  | .array items _ => itemsDepth items + 1
  | .object members _ => membersDepth members + 1
  | .null | .bool _ | .number _ | .cutNumber | .string _ | .missing _ => 0

/-- The depth of the deepest of some items. -/
def itemsDepth : List Json → Nat
  | [] => 0
  | item :: items => max (depth item) (itemsDepth items)

/-- The depth of the deepest value of some members. -/
def membersDepth : List (Literal × Json) → Nat
  | [] => 0
  | (_, value) :: members => max (depth value) (membersDepth members)

end

theorem itemsDepth_le_iff {items : List Json} {bound : Nat} :
    itemsDepth items ≤ bound ↔ ∀ item ∈ items, item.depth ≤ bound := by
  induction items with
  | nil => simp [itemsDepth]
  | cons item items ih => rw [itemsDepth, Nat.max_le, ih, List.forall_mem_cons]

theorem membersDepth_le_iff {members : List (Literal × Json)} {bound : Nat} :
    membersDepth members ≤ bound ↔ ∀ member ∈ members, member.2.depth ≤ bound := by
  induction members with
  | nil => simp [membersDepth]
  | cons member members ih => rw [membersDepth, Nat.max_le, ih, List.forall_mem_cons]

/-! ## Steps of a reader -/

theorem map_eq_ok_iff {ε α β : Type} {result : Except ε α} {f : α → β} {value : β} :
    result.map f = .ok value ↔ ∃ found, result = .ok found ∧ f found = value := by
  cases result <;> simp [Except.map]

theorem bind_eq_ok_iff {ε α β : Type} {result : Except ε α} {next : α → Except ε β} {value : β} :
    (result >>= next) = .ok value ↔ ∃ found, result = .ok found ∧ next found = .ok value := by
  cases result <;> simp [bind, Except.bind]

/-! ## Strings -/

namespace Literal

theorem decodePieces_of_means {pieces : List Piece} {chars : List Char}
    (hmeans : Means pieces chars) : decodePieces none pieces = .ok chars := by
  induction hmeans with
  | nil => rfl
  | char char _ ih =>
      rw [decodePieces, ih]
      rfl
  | @pair high low char hhigh hlow hchar pieces chars _ ih =>
      have hhalves : (isHigh high && isLow low) = true := by
        simp only [isHigh, isLow, Bool.and_eq_true, decide_eq_true_iff]
        omega
      have hpaired : paired high low = char := by
        rw [paired, ← hchar, Char.ofNat_toNat]
      rw [decodePieces, if_pos hhalves, ih, hpaired]
      rfl

/-- The character of two halves is the one that they make up. -/
theorem toNat_paired {high low : Nat} (hhigh : 0xD800 ≤ high ∧ high < 0xDC00)
    (hlow : 0xDC00 ≤ low ∧ low < 0xE000) :
    (paired high low).toNat = 0x10000 + (high - 0xD800) * 0x400 + (low - 0xDC00) := by
  have hvalid : (0x10000 + (high - 0xD800) * 0x400 + (low - 0xDC00)).isValidChar :=
    Or.inr ⟨by omega, by omega⟩
  rw [paired, Char.ofNat, dif_pos hvalid]
  rfl

/-- Pieces that are decoded are complete, and the halves among them come in pairs. -/
theorem means_of_decodePieces {stop : Option Fault} {pieces : List Piece} {chars : List Char}
    (hdecoded : decodePieces stop pieces = .ok chars) : stop = none ∧ Means pieces chars := by
  induction pieces using decodePieces.induct stop generalizing chars with
  | case1 hstop =>
      subst hstop
      obtain rfl := Except.ok.inj hdecoded
      exact ⟨rfl, .nil⟩
  | case2 fault hstop =>
      subst hstop
      cases hdecoded
  | case3 char pieces ih =>
      rw [decodePieces, map_eq_ok_iff] at hdecoded
      obtain ⟨rest, hrest, rfl⟩ := hdecoded
      obtain ⟨hstop, hmeans⟩ := ih hrest
      exact ⟨hstop, .char char hmeans⟩
  | case4 unit =>
      rw [decodePieces] at hdecoded
      cases hdecoded
  | case5 high low pieces hhalves ih =>
      rw [decodePieces, if_pos hhalves, map_eq_ok_iff] at hdecoded
      obtain ⟨rest, hrest, rfl⟩ := hdecoded
      obtain ⟨hstop, hmeans⟩ := ih hrest
      simp only [isHigh, isLow, Bool.and_eq_true, decide_eq_true_iff] at hhalves
      exact ⟨hstop, .pair hhalves.1 hhalves.2 (toNat_paired hhalves.1 hhalves.2) hmeans⟩
  | case6 high low pieces hhalves =>
      rw [decodePieces, if_neg hhalves] at hdecoded
      cases hdecoded
  | case7 unit char pieces =>
      rw [decodePieces] at hdecoded
      cases hdecoded

/-- A string is read as the text that it says. -/
theorem read_of_says {literal : Literal} {text : String} (hmeant : literal.Says text) :
    literal.read = .ok text := by
  obtain ⟨hstop, hmeans⟩ := hmeant
  rw [read, decode, hstop, decodePieces_of_means hmeans, Except.map, String.ofList_toList]
  rfl

/-- **A string is read** exactly if it says a text, and as this text. -/
theorem read_eq_ok_iff {literal : Literal} {text : String} :
    literal.read = .ok text ↔ literal.Says text := by
  constructor
  · intro hread
    rw [read] at hread
    cases hdecode : literal.decode with
    | error fault =>
        rw [hdecode] at hread
        exact nomatch hread
    | ok decoded =>
        rw [hdecode] at hread
        obtain rfl := Except.ok.inj hread
        obtain ⟨chars, hdecoded, rfl⟩ := map_eq_ok_iff.mp hdecode
        obtain ⟨hstop, hmeans⟩ := means_of_decodePieces hdecoded
        exact ⟨hstop, by rwa [String.toList_ofList]⟩
  · exact read_of_says

/-- Half of a character alone says nothing. -/
theorem not_says_surrogate {unit : Nat} {text : String} :
    ¬ Says ⟨[.surrogate unit], none⟩ text := by
  rintro ⟨_, hmeans⟩
  exact nomatch hmeans

theorem says_ofString (text : String) : (ofString text).Says text := by
  have hmeans : ∀ chars : List Char, Means (chars.map .char) chars := by
    intro chars
    induction chars with
    | nil => exact .nil
    | cons char chars ih => exact .char char ih
  exact ⟨rfl, hmeans text.toList⟩

end Literal

/-- A value that is not read only has to be free of faults. -/
theorem WellFormed.skip {json : Json} (hjson : json.WellFormed) : json.skip = .ok () := by
  rw [Json.skip, fault?_of_wellFormed hjson]

/-! ## Codecs -/

namespace Codec

variable {α : Type} {codec : Codec α} {spelling : Spelling α}

/-- The codec reads all spellings of a value, and what it writes is one of them. -/
structure Lawful (codec : Codec α) (spelling : Spelling α) : Prop where
  read : ∀ levels value json, spelling levels value json → codec.read levels json = .ok value
  plain : ∀ value, (codec.write value).Plain
  spelling_write : ∀ value levels, (codec.write value).depth ≤ levels →
    spelling levels value (codec.write value)

theorem Lawful.read_write (hcodec : codec.Lawful spelling) (value : α) (levels : Nat)
    (hdepth : (codec.write value).depth ≤ levels) :
    codec.read levels (codec.write value) = .ok value :=
  hcodec.read levels value _ (hcodec.spelling_write value levels hdepth)

theorem lawful_string : Codec.string.Lawful .string where
  read := by
    rintro levels text _ ⟨literal, rfl, hmeant⟩
    exact Literal.read_of_says hmeant
  plain := .string
  spelling_write text _ _ := ⟨_, rfl, Literal.says_ofString text⟩

theorem lawful_bool : Codec.bool.Lawful .bool where
  read := by
    rintro levels value _ rfl
    rfl
  plain := .bool
  spelling_write _ _ _ := rfl

/-- Items are read one after another. -/
theorem readItems_of_forall₂ {read : Json → Except ReadError α} {values : List α}
    {items : List Json}
    (hitems : List.Forall₂ (fun value item => read item = .ok value) values items) :
    readItems read items = .ok values := by
  induction hitems with
  | nil => rfl
  | cons hitem _ ih =>
      rw [readItems, hitem, ih]
      rfl

/-- An array is read if its items are, one level deeper. -/
theorem readList_of_spelling {read : Nat → Json → Except ReadError α}
    (hread : ∀ levels value json, spelling levels value json → read levels json = .ok value)
    {levels : Nat} {values : List α} {json : Json}
    (hjson : Spelling.list spelling levels values json) :
    readList read levels json = .ok values := by
  obtain _ | levels := levels
  · exact hjson.elim
  · obtain ⟨items, rfl, hitems⟩ := hjson
    rw [readList, readItems_of_forall₂ (hitems.imp (hread levels))]
    rfl

/-- A written array spells a list if the items do, one level deeper. -/
theorem spelling_list {values : List α} {write : α → Json} {levels : Nat}
    (hdepth : (Json.array (values.map write) none).depth ≤ levels)
    (hwrite : ∀ value ∈ values, ∀ levels, (write value).depth ≤ levels →
      spelling levels value (write value)) :
    Spelling.list spelling levels values (.array (values.map write) none) := by
  rw [Json.depth] at hdepth
  obtain _ | levels := levels
  · exact absurd hdepth (Nat.not_succ_le_zero _)
  · refine ⟨_, rfl, ?_⟩
    rw [List.forall₂_map_right_iff, List.forall₂_same]
    intro value hvalue
    refine hwrite value hvalue levels ?_
    exact itemsDepth_le_iff.mp (Nat.le_of_succ_le_succ hdepth) _ (List.mem_map_of_mem hvalue)

theorem Lawful.list (hcodec : codec.Lawful spelling) : codec.list.Lawful (.list spelling) where
  read _ _ _ := readList_of_spelling hcodec.read
  plain _ := .array (List.forall_mem_map.mpr fun value _ => hcodec.plain value)
  spelling_write _ _ hdepth := spelling_list hdepth fun value _ levels =>
    hcodec.spelling_write value levels

end Codec

end ToolchainMerge.Json
