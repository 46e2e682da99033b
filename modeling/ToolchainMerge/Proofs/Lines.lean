import Mathlib.Algebra.Group.Nat.Defs
import Mathlib.Data.List.Infix
import Mathlib.Tactic.SplitIfs
import ToolchainMerge.Text.Lines

/-!
# The first difference between two texts

`firstDifference?` compares two texts line by line once their line ends are unified.  It finds
nothing exactly if the texts are then the same, and otherwise the line behind those that they have
in common at the beginning (`firstDifference?_exact`).

Being the same and having the same lines are not the same relation.  `ConsistsOf` says without the
scan what the lines of a text are: between two of them stands a line feed, with or without a
carriage return in front of it, and the last line may end with neither.  So texts with the same
lines can still differ in what ends the lines.  Even texts with unified ends can, since taking away
a carriage return may bring another one to the line feed (`withLineFeeds_withLineFeeds_eq_iff`).

The number of a line has 32 bits, and it is right below `2 ^ 31` only.

## Strategy

`firstMismatch` goes through two lists at once.  By its own recursion it ends behind their longest
common prefix, which is unique and does not depend on the order of the lists; the rest is about
prefixes and looks at the search no more.  The count is a natural number all along and becomes a
word in one place (`Difference.standsBehind_of_common`).
-/

namespace ToolchainMerge.Text

/-! ## Line ends -/

theorem lineEnd_isPrefix_iff {char : Char} {rest : List Char} :
    ['\r', '\n'] <+: char :: rest ↔ char = '\r' ∧ rest.head? = some '\n' := by
  cases rest <;> simp [List.cons_prefix_cons, eq_comm]

/-- A character that no line feed makes part of a line end is kept. -/
theorem unifyEnds_cons {char : Char} {rest : List Char}
    (hchar : ¬ (char = '\r' ∧ rest.head? = some '\n')) :
    unifyEnds (char :: rest) = char :: unifyEnds rest := by
  rw [unifyEnds]
  rintro tail rfl rfl
  exact hchar ⟨rfl, rfl⟩

theorem head?_unifyEnds_eq_iff {chars : List Char} :
    (unifyEnds chars).head? = some '\n' ↔ chars.head? = some '\n' ∨ ['\r', '\n'] <+: chars := by
  cases chars with
  | nil => simp [unifyEnds]
  | cons char rest =>
      rw [lineEnd_isPrefix_iff]
      by_cases hchar : char = '\r' ∧ rest.head? = some '\n'
      · obtain ⟨rfl, hrest⟩ := hchar
        obtain ⟨tail, rfl⟩ := List.head?_eq_some_iff.mp hrest
        simp [unifyEnds]
      · rw [unifyEnds_cons hchar]
        simp [hchar]

/-- Line ends are unified where no line feed has a carriage return in front of it. -/
theorem unifyEnds_eq_self_iff {chars : List Char} :
    unifyEnds chars = chars ↔ ¬ ['\r', '\n'] <:+: chars := by
  induction chars with
  | nil => simp [unifyEnds]
  | cons char rest ih =>
      rw [List.infix_cons_iff, lineEnd_isPrefix_iff, not_or]
      by_cases hchar : char = '\r' ∧ rest.head? = some '\n'
      · obtain ⟨rfl, hrest⟩ := hchar
        obtain ⟨tail, rfl⟩ := List.head?_eq_some_iff.mp hrest
        simp [unifyEnds]
      · rw [unifyEnds_cons hchar, List.cons_inj_right, ih]
        simp [hchar]

/-- A carriage return is left in front of a line feed if there have been two. -/
theorem lineEnd_isInfix_unifyEnds_iff {chars : List Char} :
    ['\r', '\n'] <:+: unifyEnds chars ↔ ['\r', '\r', '\n'] <:+: chars := by
  induction chars using unifyEnds.induct with
  | case1 rest ih =>
      rw [unifyEnds, List.infix_cons_iff, ih]
      simp [List.infix_cons_iff]
  | case2 char rest hkept ih =>
      have hchar : ¬ (char = '\r' ∧ rest.head? = some '\n') := by
        rintro ⟨rfl, hrest⟩
        obtain ⟨tail, rfl⟩ := List.head?_eq_some_iff.mp hrest
        exact hkept tail rfl rfl
      have hprefix : char = '\r' ∧ (rest.head? = some '\n' ∨ ['\r', '\n'] <+: rest) ↔
          '\r' = char ∧ ['\r', '\n'] <+: rest := by
        rw [and_or_left, or_iff_right hchar, eq_comm]
      rw [unifyEnds_cons hchar, List.infix_cons_iff, List.infix_cons_iff, lineEnd_isPrefix_iff,
        head?_unifyEnds_eq_iff, ih, List.cons_prefix_cons, hprefix]
  | case3 => simp [unifyEnds]

/-- Somewhere in a text a line end with a carriage return has another one in front of it. -/
def HasDoubledReturn (text : String) : Prop :=
  ['\r', '\r', '\n'] <:+: text.toList

instance (text : String) : Decidable (HasDoubledReturn text) :=
  inferInstanceAs (Decidable (['\r', '\r', '\n'] <:+: text.toList))

/-- **Unifying line ends twice** is more than doing it once exactly for doubled carriage
returns. -/
theorem withLineFeeds_withLineFeeds_eq_iff {text : String} :
    withLineFeeds (withLineFeeds text) = withLineFeeds text ↔ ¬ HasDoubledReturn text := by
  unfold withLineFeeds HasDoubledReturn
  rw [String.toList_ofList, String.ofList_inj, unifyEnds_eq_self_iff,
    lineEnd_isInfix_unifyEnds_iff]

/-! ## The lines of a text -/

/-- A line together with what ends it.  Where a carriage return stands in front of the line feed,
one of them belongs to the end and not to the line. -/
inductive EndedLine : List Char → List Char → Prop
  | lineFeed {line : List Char} (hreturn : line.getLast? ≠ some '\r') :
      EndedLine line (line ++ ['\n'])
  | both (line : List Char) : EndedLine line (line ++ ['\r', '\n'])

/-- A text consists of lines with their ends.  Only the last one may be without an end, and then
there is something on it. -/
inductive ConsistsOf : List Char → List String → Prop
  | nil : ConsistsOf [] []
  | last {line : List Char} (hline : '\n' ∉ line) (hne : line ≠ []) :
      ConsistsOf line [String.ofList line]
  | ended {line ended rest : List Char} {lines : List String} (hline : '\n' ∉ line)
      (hended : EndedLine line ended) (hrest : ConsistsOf rest lines) :
      ConsistsOf (ended ++ rest) (String.ofList line :: lines)

theorem exists_endedLine_completedLine (line : List Char) :
    ∃ body, completedLine line = String.ofList body ∧ body ⊆ line ∧
      EndedLine body (line.reverse ++ ['\n']) := by
  unfold completedLine
  split
  · rename_i body
    refine ⟨body.reverse, rfl, ?_, ?_⟩
    · intro char hchar
      exact List.mem_cons_of_mem _ (List.mem_reverse.mp hchar)
    · rw [List.reverse_cons, List.append_assoc]
      exact .both _
  · rename_i hreturn
    refine ⟨line.reverse, rfl, fun _ => List.mem_reverse.mp, .lineFeed ?_⟩
    rw [List.getLast?_reverse]
    intro hhead
    obtain ⟨body, rfl⟩ := List.head?_eq_some_iff.mp hhead
    exact hreturn body rfl

/-- The text so far ends with the characters of the line that has begun. -/
theorem consistsOf_linesFrom {line : List Char} (hline : '\n' ∉ line) (chars : List Char) :
    ConsistsOf (line.reverse ++ chars) (linesFrom line chars) := by
  induction chars generalizing line with
  | nil =>
      unfold linesFrom
      rw [List.append_nil]
      split_ifs with hempty
      · rw [List.isEmpty_iff.mp hempty]
        exact .nil
      · refine .last ?_ ?_
        · rwa [List.mem_reverse]
        · rwa [ne_eq, List.reverse_eq_nil_iff, ← List.isEmpty_iff]
  | cons char rest ih =>
      unfold linesFrom
      split_ifs with hchar
      · obtain ⟨body, hbody, hsubset, hended⟩ := exists_endedLine_completedLine line
        rw [hbody, hchar, List.append_cons]
        exact .ended (fun hmem => hline (hsubset hmem)) hended (ih List.not_mem_nil)
      · have hmore : '\n' ∉ char :: line := by simp [hline, Ne.symm hchar]
        have hrest := ih hmore
        rwa [List.reverse_cons, List.append_assoc] at hrest

/-- Characters other than line feeds go into the line that has begun. -/
theorem linesFrom_append {body : List Char} (hbody : '\n' ∉ body) (line rest : List Char) :
    linesFrom line (body ++ rest) = linesFrom (body.reverse ++ line) rest := by
  induction body generalizing line with
  | nil => rfl
  | cons char body ih =>
      rw [List.mem_cons, not_or] at hbody
      rw [List.cons_append, linesFrom, if_neg (Ne.symm hbody.1), ih hbody.2]
      simp

theorem linesFrom_lineFeed (line rest : List Char) :
    linesFrom line ('\n' :: rest) = completedLine line :: linesFrom [] rest := by
  rw [linesFrom, if_pos rfl]

theorem linesFrom_ended {line ended : List Char} (hline : '\n' ∉ line)
    (hended : EndedLine line ended) (rest : List Char) :
    linesFrom [] (ended ++ rest) = String.ofList line :: linesFrom [] rest := by
  cases hended with
  | lineFeed hreturn =>
      rw [List.append_assoc, linesFrom_append hline, List.append_nil, List.singleton_append,
        linesFrom_lineFeed]
      unfold completedLine
      split
      · rename_i body hbody
        rw [← List.head?_reverse, hbody] at hreturn
        exact absurd rfl hreturn
      · rw [List.reverse_reverse]
  | both =>
      have hmore : '\n' ∉ line ++ ['\r'] := by simp [hline]
      have hsplit : line ++ ['\r', '\n'] ++ rest = (line ++ ['\r']) ++ '\n' :: rest := by simp
      rw [hsplit, linesFrom_append hmore, linesFrom_lineFeed]
      simp [completedLine]

theorem linesFrom_of_consistsOf {chars : List Char} {parts : List String}
    (hparts : ConsistsOf chars parts) : linesFrom [] chars = parts := by
  induction hparts with
  | nil => rfl
  | @last line hline hne =>
      have hread := linesFrom_append hline [] []
      rw [List.append_nil, List.append_nil] at hread
      rw [hread, linesFrom, List.reverse_reverse, if_neg]
      simpa using hne
  | ended hline hended _ ih => rw [linesFrom_ended hline hended, ih]

/-- **The lines of a text** are those of which it consists. -/
theorem consistsOf_iff {text : String} {parts : List String} :
    ConsistsOf text.toList parts ↔ lines text = parts := by
  constructor
  · exact linesFrom_of_consistsOf
  · rintro rfl
    exact consistsOf_linesFrom List.not_mem_nil text.toList

/-! ## What two lists have in common -/

/-- The beginning that two lists have in common, as far as it goes. -/
structure LongestCommonPrefix {α : Type} (common first second : List α) : Prop where
  left : common <+: first
  right : common <+: second
  longest : ∀ other, other <+: first → other <+: second → other <+: common

namespace LongestCommonPrefix

variable {α : Type} {common other first second : List α}

theorem swap (hcommon : LongestCommonPrefix common first second) :
    LongestCommonPrefix common second first :=
  ⟨hcommon.right, hcommon.left, fun other hsecond hfirst => hcommon.longest other hfirst hsecond⟩

theorem unique (hcommon : LongestCommonPrefix common first second)
    (hother : LongestCommonPrefix other first second) : common = other := by
  have hle := hother.longest common hcommon.left hcommon.right
  have hge := hcommon.longest other hother.left hother.right
  exact hle.eq_of_length_le hge.length_le

/-- Where a list has ended or the next elements differ, nothing more is in common. -/
theorem nil (hheads : ∀ element, first.head? = some element → second.head? ≠ some element) :
    LongestCommonPrefix [] first second where
  left := List.nil_prefix
  right := List.nil_prefix
  longest other hfirst hsecond := by
    cases other with
    | nil => exact List.nil_prefix
    | cons element rest =>
        obtain ⟨_, rfl⟩ := hfirst
        obtain ⟨_, rfl⟩ := hsecond
        exact absurd rfl (hheads element rfl)

theorem cons (hcommon : LongestCommonPrefix common first second) (element : α) :
    LongestCommonPrefix (element :: common) (element :: first) (element :: second) where
  left := List.cons_prefix_cons.mpr ⟨rfl, hcommon.left⟩
  right := List.cons_prefix_cons.mpr ⟨rfl, hcommon.right⟩
  longest other hfirst hsecond := by
    cases other with
    | nil => exact List.nil_prefix
    | cons head rest =>
        obtain ⟨rfl, hleft⟩ := List.cons_prefix_cons.mp hfirst
        obtain ⟨-, hright⟩ := List.cons_prefix_cons.mp hsecond
        exact List.cons_prefix_cons.mpr ⟨rfl, hcommon.longest rest hleft hright⟩

/-- Neither list goes on behind the common beginning exactly if they are the same. -/
theorem ended_iff (hcommon : LongestCommonPrefix common first second) :
    second[common.length]? = none ∧ first[common.length]? = none ↔ first = second := by
  rw [List.getElem?_eq_none_iff, List.getElem?_eq_none_iff]
  constructor
  · rintro ⟨hsecond, hfirst⟩
    rw [← hcommon.left.eq_of_length_le hfirst, ← hcommon.right.eq_of_length_le hsecond]
  · rintro rfl
    have hall := (hcommon.longest first List.prefix_rfl List.prefix_rfl).length_le
    exact ⟨hall, hall⟩

end LongestCommonPrefix

/-- **The search ends behind what the lists have in common.**  The lines up to there are counted in
32 bits. -/
theorem firstMismatch_eq (number : Int32) (actual expected : List String) :
    ∃ common, LongestCommonPrefix common actual expected ∧
      firstMismatch number actual expected =
        ⟨number + Int32.ofNat common.length, expected[common.length]?,
          actual[common.length]?⟩ := by
  induction number, actual, expected using firstMismatch.induct with
  | case1 number actual line expected ih =>
      obtain ⟨common, hcommon, heq⟩ := ih
      have hcount : number + 1 + Int32.ofNat common.length =
          number + Int32.ofNat (common.length + 1) := by
        rw [Int32.add_assoc, Int32.ofNat_add, Int32.add_comm (Int32.ofNat common.length)]
        rfl
      refine ⟨line :: common, hcommon.cons line, ?_⟩
      rw [firstMismatch, if_pos rfl, heq, List.length_cons, hcount]
      rfl
  | case2 number left actual right expected hne =>
      refine ⟨[], .nil ?_, ?_⟩
      · rintro _ ⟨rfl⟩ ⟨rfl⟩
        exact hne rfl
      · have hcount : number + Int32.ofNat 0 = number := Int32.add_zero number
        rw [firstMismatch, if_neg hne, List.length_nil, hcount]
        rfl
  | case3 number actual expected hended =>
      refine ⟨[], .nil ?_, ?_⟩
      · intro line hactual hexpected
        obtain ⟨_, rfl⟩ := List.head?_eq_some_iff.mp hactual
        obtain ⟨_, rfl⟩ := List.head?_eq_some_iff.mp hexpected
        exact hended _ _ _ _ rfl rfl
      · rw [firstMismatch]
        · simp [List.head?_eq_getElem?]
        · exact hended

/-! ## The first difference -/

namespace Difference

/-- The difference of the same texts the other way round. -/
def swapped (difference : Difference) : Difference :=
  ⟨difference.number, difference.actual, difference.expected⟩

/-- A difference reports the line that stands behind some lines that two texts have in common. -/
structure StandsBehind (difference : Difference) (common : List String)
    (actual expected : String) : Prop where
  longest : LongestCommonPrefix common (lines (withLineFeeds actual))
    (lines (withLineFeeds expected))
  number_eq : difference.number = Int32.ofNat (common.length + 1)
  /-- Lines are counted right as long as 32 bits can hold their number. -/
  counted : common.length + 1 < 2 ^ 31 → difference.number.toInt = common.length + 1
  expected_eq : difference.expected = (lines (withLineFeeds expected))[common.length]?
  actual_eq : difference.actual = (lines (withLineFeeds actual))[common.length]?
  message_eq : difference.message =
    "line " ++ toString difference.number.toInt ++ ": expected " ++
      shown ((lines (withLineFeeds expected))[common.length]?.getD "<end of text>") ++
      ", got " ++ shown ((lines (withLineFeeds actual))[common.length]?.getD "<end of text>")

/-- What is said of the first line in which two texts differ. -/
structure Pinpoints (difference : Difference) (actual expected : String) : Prop where
  ne : withLineFeeds actual ≠ withLineFeeds expected
  /-- The line stands behind those that the texts have in common. -/
  behind : ∃ common, difference.StandsBehind common actual expected
  /-- At most one line is looked at behind the end of a text. -/
  number_le : difference.number.toInt ≤
    min (lines (withLineFeeds actual)).length (lines (withLineFeeds expected)).length + 1
  /-- Neither text has the line exactly if they consist of the same lines, so that they differ
  in the ends of these alone. -/
  ended_iff : difference.expected = none ∧ difference.actual = none ↔
    ∃ shared, ConsistsOf (withLineFeeds actual).toList shared ∧
      ConsistsOf (withLineFeeds expected).toList shared

variable {difference : Difference} {actual expected : String} {common : List String}

/-- What stands behind the lines that two texts have in common. -/
theorem standsBehind_of_common (hcommon : LongestCommonPrefix common
    (lines (withLineFeeds actual)) (lines (withLineFeeds expected))) :
    StandsBehind ⟨Int32.ofNat (common.length + 1),
      (lines (withLineFeeds expected))[common.length]?,
      (lines (withLineFeeds actual))[common.length]?⟩ common actual expected where
  longest := hcommon
  number_eq := rfl
  counted hlt := by
    dsimp only
    rw [Int32.toInt_ofNat_of_lt hlt, Int.natCast_succ]
  expected_eq := rfl
  actual_eq := rfl
  message_eq := rfl

/-- A count that wraps around is not above the true one. -/
theorem toInt_ofNat_le (count : Nat) : (Int32.ofNat count).toInt ≤ count := by
  have hsize : (Int32.size : Int) = 2 ^ 32 := rfl
  rw [Int32.toInt_ofNat', Int.bmod_def, hsize]
  split_ifs <;> omega

/-- The line behind what two different texts have in common pinpoints their difference. -/
theorem StandsBehind.pinpoints (hbehind : difference.StandsBehind common actual expected)
    (hne : withLineFeeds actual ≠ withLineFeeds expected) :
    difference.Pinpoints actual expected where
  ne := hne
  behind := ⟨common, hbehind⟩
  number_le := by
    have hactual := hbehind.longest.left.length_le
    have hexpected := hbehind.longest.right.length_le
    have hcount := toInt_ofNat_le (common.length + 1)
    rw [hbehind.number_eq]
    omega
  ended_iff := by
    rw [hbehind.expected_eq, hbehind.actual_eq, hbehind.longest.ended_iff]
    simp only [consistsOf_iff]
    constructor
    · intro hlines
      exact ⟨_, rfl, hlines.symm⟩
    · rintro ⟨shared, hactual, hexpected⟩
      rw [hactual, hexpected]

theorem StandsBehind.unique {other : Difference} {common' : List String}
    (hbehind : difference.StandsBehind common actual expected)
    (hother : other.StandsBehind common' actual expected) : difference = other := by
  obtain rfl := hbehind.longest.unique hother.longest
  obtain ⟨number, expectedLine, actualLine⟩ := difference
  obtain ⟨number', expectedLine', actualLine'⟩ := other
  rw [Difference.mk.injEq]
  exact ⟨hbehind.number_eq.trans hother.number_eq.symm,
    hbehind.expected_eq.trans hother.expected_eq.symm,
    hbehind.actual_eq.trans hother.actual_eq.symm⟩

theorem Pinpoints.unique {other : Difference} (hdifference : difference.Pinpoints actual expected)
    (hother : other.Pinpoints actual expected) : difference = other := by
  obtain ⟨_, hbehind⟩ := hdifference.behind
  obtain ⟨_, hbehind'⟩ := hother.behind
  exact hbehind.unique hbehind'

theorem Pinpoints.swap (hdifference : difference.Pinpoints actual expected) :
    difference.swapped.Pinpoints expected actual := by
  obtain ⟨common, hbehind⟩ := hdifference.behind
  have hswapped := standsBehind_of_common hbehind.longest.swap
  rw [← hbehind.number_eq, ← hbehind.expected_eq, ← hbehind.actual_eq] at hswapped
  exact hswapped.pinpoints hdifference.ne.symm

end Difference

theorem firstDifference?_eq_none_iff {actual expected : String} :
    firstDifference? actual expected = none ↔ withLineFeeds actual = withLineFeeds expected := by
  unfold firstDifference?
  dsimp only
  split_ifs with heq <;> simp [heq]

theorem firstDifference?_eq_some_iff {actual expected : String} {difference : Difference} :
    firstDifference? actual expected = some difference ↔
      difference.Pinpoints actual expected := by
  have hfound : ∀ hne : withLineFeeds actual ≠ withLineFeeds expected,
      ∃ found, firstDifference? actual expected = some found ∧ found.Pinpoints actual expected := by
    intro hne
    obtain ⟨common, hcommon, heq⟩ :=
      firstMismatch_eq 1 (lines (withLineFeeds actual)) (lines (withLineFeeds expected))
    have hcount : (1 : Int32) + Int32.ofNat common.length = Int32.ofNat (common.length + 1) := by
      rw [Int32.ofNat_add, Int32.add_comm]
      rfl
    rw [hcount] at heq
    refine ⟨_, ?_, (Difference.standsBehind_of_common hcommon).pinpoints hne⟩
    rw [firstDifference?, if_neg hne, heq]
  constructor
  · intro hsome
    have hne : withLineFeeds actual ≠ withLineFeeds expected := by
      intro heq
      rw [firstDifference?_eq_none_iff.mpr heq] at hsome
      exact nomatch hsome
    obtain ⟨found, hfind, hpinpoints⟩ := hfound hne
    obtain rfl : found = difference := Option.some.inj (hfind.symm.trans hsome)
    exact hpinpoints
  · intro hdifference
    obtain ⟨found, hfind, hpinpoints⟩ := hfound hdifference.ne
    rw [hfind, hpinpoints.unique hdifference]

/-- **The first difference is exact.**  There is none exactly if the texts are equal up to line
ends; otherwise it is the line behind those that the texts have in common, and its number is right
where that is below `2 ^ 31`.  With the texts the other way round, it is the same line. -/
theorem firstDifference?_exact (actual expected : String) :
    (firstDifference? actual expected = none ↔
        withLineFeeds actual = withLineFeeds expected) ∧
      (∀ difference, firstDifference? actual expected = some difference ↔
        difference.Pinpoints actual expected) ∧
      firstDifference? expected actual =
        (firstDifference? actual expected).map Difference.swapped := by
  refine ⟨firstDifference?_eq_none_iff, fun _ => firstDifference?_eq_some_iff, ?_⟩
  cases hfind : firstDifference? actual expected with
  | none => exact firstDifference?_eq_none_iff.mpr (firstDifference?_eq_none_iff.mp hfind).symm
  | some difference =>
      exact firstDifference?_eq_some_iff.mpr (firstDifference?_eq_some_iff.mp hfind).swap

/-! ## Where the report misleads -/

theorem withLineFeeds_eq_self {chars : List Char} (hreturn : '\r' ∉ chars) :
    withLineFeeds (String.ofList chars) = String.ofList chars := by
  rw [withLineFeeds, String.toList_ofList, unifyEnds_eq_self_iff.mpr]
  intro hend
  exact hreturn (hend.subset List.mem_cons_self)

theorem linesFrom_replicate_append (count : Nat) (rest : List Char) :
    linesFrom [] (List.replicate count '\n' ++ rest) =
      List.replicate count "" ++ linesFrom [] rest := by
  induction count with
  | zero => rfl
  | succ count ih =>
      rw [List.replicate_succ, List.cons_append, linesFrom_lineFeed, ih]
      rfl

/-- Two texts have empty lines in common, and then one of them has one more line. -/
theorem exists_firstDifference?_emptyLines (count : Nat) :
    let shorter := List.replicate count '\n'
    let longer := List.replicate count '\n' ++ ['x']
    ∃ difference,
      firstDifference? (String.ofList shorter) (String.ofList longer) = some difference ∧
        difference.StandsBehind (List.replicate count "") (String.ofList shorter)
          (String.ofList longer) := by
  intro shorter longer
  have hshorter : withLineFeeds (String.ofList shorter) = String.ofList shorter :=
    withLineFeeds_eq_self (by simp [shorter])
  have hlonger : withLineFeeds (String.ofList longer) = String.ofList longer :=
    withLineFeeds_eq_self (by simp [longer])
  have hlines : lines (String.ofList shorter) = List.replicate count "" := by
    have hread := linesFrom_replicate_append count []
    rw [List.append_nil] at hread
    rw [lines, String.toList_ofList, hread]
    exact List.append_nil _
  have hlines' : lines (String.ofList longer) = List.replicate count "" ++ ["x"] := by
    rw [lines, String.toList_ofList, linesFrom_replicate_append]
    rfl
  have hcommon : LongestCommonPrefix (List.replicate count "")
      (lines (withLineFeeds (String.ofList shorter)))
      (lines (withLineFeeds (String.ofList longer))) := by
    rw [hshorter, hlonger, hlines, hlines']
    exact ⟨List.prefix_rfl, List.prefix_append _ _, fun _ hleft _ => hleft⟩
  have hne : withLineFeeds (String.ofList shorter) ≠ withLineFeeds (String.ofList longer) := by
    rw [hshorter, hlonger, ne_eq, String.ofList_inj]
    intro heq
    exact absurd (congrArg List.length heq) (by simp [shorter, longer])
  have hbehind := Difference.standsBehind_of_common hcommon
  exact ⟨_, firstDifference?_eq_some_iff.mpr (hbehind.pinpoints hne), hbehind⟩

/-- Not every number is that of the line: the one behind `2 ^ 31 - 1` empty lines is negative.  And
not only texts with the same lines are said to have ended both: the words for it may be a line. -/
theorem not_forall_counted_or_ended :
    (¬ ∀ (actual expected : String) (difference : Difference) (common : List String),
      firstDifference? actual expected = some difference →
      LongestCommonPrefix common (lines (withLineFeeds actual))
        (lines (withLineFeeds expected)) →
      difference.number.toInt = common.length + 1) ∧
    ¬ ∀ (actual expected : String) (difference : Difference),
      firstDifference? actual expected = some difference →
      difference.expected.getD "<end of text>" = "<end of text>" →
      difference.actual.getD "<end of text>" = "<end of text>" →
      lines (withLineFeeds actual) = lines (withLineFeeds expected) := by
  constructor
  · intro hall
    obtain ⟨difference, hfind, hbehind⟩ := exists_firstDifference?_emptyLines (2 ^ 31 - 1)
    have hnumber := hall _ _ difference _ hfind hbehind.longest
    rw [hbehind.number_eq, List.length_replicate] at hnumber
    exact absurd hnumber (by decide)
  · intro hall
    have hlines := hall "<end of text>" "" ⟨1, none, some "<end of text>"⟩ (by decide) rfl rfl
    exact absurd hlines (by decide)

end ToolchainMerge.Text
