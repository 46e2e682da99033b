import Mathlib.Tactic.IntervalCases
import ToolchainMerge.Json.Token

/-!
# The texts of a token

A string can be written in many ways, since each of its characters may stand for itself, be
named by a letter or be given by its code unit in hexadecimal digits of either case.  A number
is written digit by digit, but its exponent may begin with either letter and have a plus sign.
Here are these texts (`Piece.Text`, `Number.IsText`), and the lexer is shown to take all texts of
a token for that token.

A string ends with its closing quote, a number only at the character behind it.  So what the
lexer is in behind a token is not one state: it is `Settled` when the tokens are complete at the
end of the text and at every character that may follow a value.
-/

namespace ToolchainMerge.Json

/-! ## Strings -/

/-- The hexadecimal digits of a value, in lower and in upper case. -/
def IsHexDigit (value : Nat) (char : Char) : Prop :=
  value < 16 ∧ (char = Nat.digitChar value ∨ char = (Nat.digitChar value).toUpper)

/-- The four hexadecimal digits of a code unit. -/
inductive IsCodeUnit : Nat → List Char → Prop
  | digits {first second third fourth : Nat} {char char' char'' char''' : Char}
      (hfirst : IsHexDigit first char) (hsecond : IsHexDigit second char')
      (hthird : IsHexDigit third char'') (hfourth : IsHexDigit fourth char''') :
      IsCodeUnit (((first * 16 + second) * 16 + third) * 16 + fourth) [char, char', char'', char''']

/-- The letters that name a character behind a backslash, and the characters. -/
def namedEscapes : List (Char × Char) :=
  [('"', '"'), ('\\', '\\'), ('/', '/'), ('b', '\x08'), ('f', '\x0c'), ('n', '\n'), ('r', '\r'),
    ('t', '\t')]

/-- The texts of a piece of a string. -/
inductive Piece.Text : Piece → List Char → Prop
  | plain {char : Char} (hcontrol : ' ' ≤ char) (hquote : char ≠ '"') (hbackslash : char ≠ '\\') :
      Text (.char char) [char]
  | named {letter char : Char} (hletter : (letter, char) ∈ namedEscapes) :
      Text (.char char) ['\\', letter]
  | codeUnit {char : Char} {digits : List Char} (hdigits : IsCodeUnit char.toNat digits) :
      Text (.char char) ('\\' :: 'u' :: digits)
  | half {unit : Nat} {digits : List Char} (hdigits : IsCodeUnit unit digits)
      (hhalf : 0xD800 ≤ unit ∧ unit < 0xE000) : Text (.surrogate unit) ('\\' :: 'u' :: digits)

/-- The texts of pieces in a row. -/
inductive Piece.Texts : List Piece → List Char → Prop
  | nil : Texts [] []
  | cons {piece : Piece} {pieces : List Piece} {chars chars' : List Char}
      (hpiece : piece.Text chars) (hpieces : Texts pieces chars') :
      Texts (piece :: pieces) (chars ++ chars')

namespace Lexer

/-- A hexadecimal digit is read as its value and takes one byte. -/
theorem hexDigit?_of_isHexDigit {value : Nat} {char : Char} (hchar : IsHexDigit value char) :
    hexDigit? char = some value ∧ char.utf8Size = 1 := by
  have hvalues : ∀ value < 16,
      (hexDigit? (Nat.digitChar value) = some value ∧ (Nat.digitChar value).utf8Size = 1) ∧
        hexDigit? (Nat.digitChar value).toUpper = some value ∧
          (Nat.digitChar value).toUpper.utf8Size = 1 := by
    decide
  obtain ⟨hvalue, rfl | rfl⟩ := hchar
  · exact (hvalues value hvalue).1
  · exact (hvalues value hvalue).2

/-- Behind `\u` the digits of a code unit make up the piece that the unit stands for. -/
theorem foldl_step_codeUnit {unit : Nat} {digits : List Char} (hdigits : IsCodeUnit unit digits)
    (done : List Token) (pieces : List Piece) :
    digits.foldl step ⟨done, .unicode pieces []⟩ =
      ⟨done, .string (pieceOfUnit unit :: pieces)⟩ := by
  obtain ⟨hfirst, hsecond, hthird, hfourth⟩ := hdigits
  obtain ⟨hfirst, hsize⟩ := hexDigit?_of_isHexDigit hfirst
  obtain ⟨hsecond, hsize'⟩ := hexDigit?_of_isHexDigit hsecond
  obtain ⟨hthird, hsize''⟩ := hexDigit?_of_isHexDigit hthird
  obtain ⟨hfourth, hsize'''⟩ := hexDigit?_of_isHexDigit hfourth
  simp [step, stepUnicode, byteCount, codeUnit?, hsize, hsize', hsize'', hsize''', hfirst,
    hsecond, hthird, hfourth]

/-- No character is half of a character. -/
theorem pieceOfUnit_toNat (char : Char) : pieceOfUnit char.toNat = .char char := by
  have hvalid : char.toNat < 0xD800 ∨ 0xDFFF < char.toNat ∧ char.toNat < 0x110000 := char.valid
  have hhalf : (Literal.isHigh char.toNat || Literal.isLow char.toNat) = false := by
    simp only [Literal.isHigh, Literal.isLow, Bool.or_eq_false_iff, Bool.and_eq_false_iff,
      decide_eq_false_iff_not]
    omega
  rw [pieceOfUnit, hhalf, Char.ofNat_toNat]
  rfl

theorem pieceOfUnit_of_half {unit : Nat} (hhalf : 0xD800 ≤ unit ∧ unit < 0xE000) :
    pieceOfUnit unit = .surrogate unit := by
  have hunit : (Literal.isHigh unit || Literal.isLow unit) = true := by
    simp only [Literal.isHigh, Literal.isLow, Bool.or_eq_true, Bool.and_eq_true, decide_eq_true_iff]
    omega
  rw [pieceOfUnit, if_pos hunit]

theorem escape?_of_mem_namedEscapes {letter char : Char}
    (hletter : (letter, char) ∈ namedEscapes) : letter ≠ 'u' ∧ escape? letter = some char := by
  simp only [namedEscapes, List.mem_cons, Prod.mk.injEq, List.not_mem_nil, or_false] at hletter
  rcases hletter with ⟨rfl, rfl⟩ | ⟨rfl, rfl⟩ | ⟨rfl, rfl⟩ | ⟨rfl, rfl⟩ | ⟨rfl, rfl⟩ | ⟨rfl, rfl⟩ |
    ⟨rfl, rfl⟩ | ⟨rfl, rfl⟩ <;> exact ⟨by decide, rfl⟩

/-- **One piece of a string** is read from each of its texts. -/
theorem foldl_step_piece {piece : Piece} {chars : List Char} (hpiece : piece.Text chars)
    (done : List Token) (pieces : List Piece) :
    chars.foldl step ⟨done, .string pieces⟩ = ⟨done, .string (piece :: pieces)⟩ := by
  have hunit : ∀ digits : List Char,
      ('\\' :: 'u' :: digits).foldl step ⟨done, .string pieces⟩ =
        digits.foldl step ⟨done, .unicode pieces []⟩ := fun _ => rfl
  cases hpiece with
  | @plain char hcontrol hquote hbackslash =>
      show stepString done pieces char = _
      rw [stepString, if_neg hquote, if_neg hbackslash, if_neg (Char.not_lt.mpr hcontrol)]
  | @named letter char hletter =>
      obtain ⟨hnotU, hmeant⟩ := escape?_of_mem_namedEscapes hletter
      show stepEscape done pieces letter = _
      rw [stepEscape, if_neg hnotU, hmeant]
  | codeUnit hdigits => rw [hunit, foldl_step_codeUnit hdigits, pieceOfUnit_toNat]
  | half hdigits hhalf => rw [hunit, foldl_step_codeUnit hdigits, pieceOfUnit_of_half hhalf]

theorem foldl_step_pieces {read : List Piece} {chars : List Char} (hread : Piece.Texts read chars)
    (done : List Token) (pieces : List Piece) :
    chars.foldl step ⟨done, .string pieces⟩ = ⟨done, .string (read.reverse ++ pieces)⟩ := by
  induction hread generalizing pieces with
  | nil => rfl
  | cons hpiece _ ih =>
      rw [List.foldl_append, foldl_step_piece hpiece, ih, List.reverse_cons, List.append_assoc]
      rfl

/-- A string is complete behind its closing quote. -/
theorem foldl_step_string {pieces : List Piece} {chars : List Char}
    (hpieces : Piece.Texts pieces chars) (done : List Token) :
    ('"' :: (chars ++ ['"'])).foldl step ⟨done, .between⟩ =
      ⟨.string ⟨pieces, none⟩ :: done, .between⟩ := by
  have hstart : step ⟨done, .between⟩ '"' = ⟨done, .string []⟩ := rfl
  rw [List.foldl_cons, hstart, List.foldl_append, foldl_step_pieces hpieces, List.append_nil]
  show stepString done pieces.reverse '"' = _
  rw [stepString, if_pos rfl, List.reverse_reverse]

end Lexer

/-! ## Numbers -/

namespace Number

/-- The numbers that can be written: there is a whole part, it has no zero in front of other
digits, and only an exponent has a sign of its own. -/
structure Proper (number : Number) : Prop where
  digits : ∀ digit ∈ number.whole ++ number.fraction ++ number.exponent, digit < 10
  whole : number.whole = [0] ∨ ∃ first rest, number.whole = first :: rest ∧ first ≠ 0
  exponent : number.exponent = [] → number.negativeExponent = false

/-- A number with a letter in front of the exponent and a sign where the exponent is not
negative. -/
def text (number : Number) (letter : Char) (sign : List Char) : List Char :=
  (if number.negative then ['-'] else []) ++ number.whole.map Nat.digitChar ++
    (if number.fraction = [] then [] else '.' :: number.fraction.map Nat.digitChar) ++
    (if number.exponent = [] then []
      else letter :: ((if number.negativeExponent then ['-'] else sign) ++
        number.exponent.map Nat.digitChar))

/-- The texts of a number. -/
def IsText (number : Number) (chars : List Char) : Prop :=
  number.Proper ∧ ∃ letter ∈ ['e', 'E'], ∃ sign ∈ [[], ['+']], chars = number.text letter sign

end Number

namespace Lexer

variable {number : Number}

theorem digit_digitChar : ∀ value < 10,
    (Nat.digitChar value).isDigit = true ∧ digit (Nat.digitChar value) = value := by
  decide

/-- A digit that is added to a part of a number. -/
theorem stepNumber_digitChar {done : List Token} {phase next : Number.Phase}
    {number number' : Number} {value : Nat} (hvalue : value < 10)
    (hstep : ∀ char, char.isDigit = true → digit char = value →
      stepNumber done phase number char = ⟨done, .number next number'⟩) :
    step ⟨done, .number phase number⟩ (Nat.digitChar value) = ⟨done, .number next number'⟩ :=
  hstep _ (digit_digitChar value hvalue).1 (digit_digitChar value hvalue).2

/-- Digits are added to a part of a number one after another. -/
theorem foldl_step_digits {done : List Token} {phase : Number.Phase} (number : List Nat → Number)
    (hstep : ∀ before value char, char.isDigit = true → digit char = value →
      stepNumber done phase (number before) char =
        ⟨done, .number phase (number (before ++ [value]))⟩)
    {values : List Nat} (hvalues : ∀ value ∈ values, value < 10) (before : List Nat) :
    (values.map Nat.digitChar).foldl step ⟨done, .number phase (number before)⟩ =
      ⟨done, .number phase (number (before ++ values))⟩ := by
  induction values generalizing before with
  | nil => rw [List.append_nil]; rfl
  | cons value values ih =>
      rw [List.forall_mem_cons] at hvalues
      have hfirst := stepNumber_digitChar hvalues.1 (hstep before value)
      rw [List.map_cons, List.foldl_cons, hfirst, ih hvalues.2, List.append_assoc]
      rfl

/-- The sign and the whole part of a number. -/
theorem foldl_step_whole (hproper : number.Proper) (done : List Token) :
    ∃ phase, (phase = .zero ∨ phase = .whole) ∧
      ((if number.negative then ['-'] else []) ++ number.whole.map Nat.digitChar).foldl step
          ⟨done, .between⟩ =
        ⟨done, .number phase ⟨number.negative, number.whole, [], false, []⟩⟩ := by
  obtain ⟨hdigits, hwhole, _⟩ := hproper
  obtain ⟨negative, whole, fraction, negativeExponent, exponent⟩ := number
  dsimp only at hdigits hwhole ⊢
  rcases hwhole with rfl | ⟨first, rest, rfl, hfirst⟩
  · -- a zero stands alone
    refine ⟨.zero, Or.inl rfl, ?_⟩
    cases negative <;> rfl
  · -- another digit opens a run of digits
    refine ⟨.whole, Or.inr rfl, ?_⟩
    have hrest : ∀ value ∈ rest, value < 10 := fun value hvalue => hdigits value (by simp [hvalue])
    have hlt : first < 10 := hdigits first (by simp)
    have hstart : ((if negative then ['-'] else []) ++ [Nat.digitChar first]).foldl step
        ⟨done, .between⟩ = ⟨done, .number .whole ⟨negative, [first], [], false, []⟩⟩ := by
      interval_cases first
      · exact absurd rfl hfirst
      all_goals cases negative <;> rfl
    have hadd : ∀ before value char, char.isDigit = true → digit char = value →
        stepNumber done .whole ⟨negative, before, [], false, []⟩ char =
          ⟨done, .number .whole ⟨negative, before ++ [value], [], false, []⟩⟩ := by
      intro before value char hdigit hvalue
      simp [stepNumber, hdigit, hvalue]
    have hmore := foldl_step_digits (⟨negative, ·, [], false, []⟩) hadd hrest [first]
    rw [List.map_cons, List.append_cons, List.foldl_append, hstart, hmore]
    rfl

/-- The fraction of a number. -/
theorem foldl_step_fraction (hdigits : ∀ digit ∈ number.fraction, digit < 10)
    {phase : Number.Phase} (hphase : phase = .zero ∨ phase = .whole) (done : List Token) :
    ∃ next, (next = .zero ∨ next = .whole ∨ next = .fraction) ∧
      (if number.fraction = [] then [] else '.' :: number.fraction.map Nat.digitChar).foldl step
          ⟨done, .number phase ⟨number.negative, number.whole, [], false, []⟩⟩ =
        ⟨done, .number next ⟨number.negative, number.whole, number.fraction, false, []⟩⟩ := by
  obtain ⟨negative, whole, fraction, negativeExponent, exponent⟩ := number
  dsimp only at hdigits ⊢
  cases fraction with
  | nil => exact ⟨phase, hphase.elim Or.inl (Or.inr ∘ Or.inl), rfl⟩
  | cons first rest =>
      rw [List.forall_mem_cons] at hdigits
      refine ⟨.fraction, Or.inr (Or.inr rfl), ?_⟩
      have hpoint : step ⟨done, .number phase ⟨negative, whole, [], false, []⟩⟩ '.' =
          ⟨done, .number .point ⟨negative, whole, [], false, []⟩⟩ := by
        rcases hphase with rfl | rfl <;> rfl
      have hfirst : step ⟨done, .number .point ⟨negative, whole, [], false, []⟩⟩
          (Nat.digitChar first) = ⟨done, .number .fraction ⟨negative, whole, [first], false, []⟩⟩ :=
        stepNumber_digitChar hdigits.1 fun char hdigit hvalue => by
          simp [stepNumber, hdigit, hvalue]
      have hadd : ∀ before value char, char.isDigit = true → digit char = value →
          stepNumber done .fraction ⟨negative, whole, before, false, []⟩ char =
            ⟨done, .number .fraction ⟨negative, whole, before ++ [value], false, []⟩⟩ := by
        intro before value char hdigit hvalue
        simp [stepNumber, hdigit, hvalue]
      have hmore := foldl_step_digits (⟨negative, whole, ·, false, []⟩) hadd hdigits.2 [first]
      rw [if_neg (List.cons_ne_nil _ _), List.map_cons, List.foldl_cons, hpoint, List.foldl_cons,
        hfirst, hmore]
      rfl

/-- The exponent of a number. -/
theorem foldl_step_exponent (hproper : number.Proper) {letter : Char}
    (hletter : letter ∈ ['e', 'E']) {sign : List Char} (hsign : sign ∈ [[], ['+']])
    {phase : Number.Phase} (hphase : phase = .zero ∨ phase = .whole ∨ phase = .fraction)
    (done : List Token) :
    ∃ next, Number.Phase.complete next = true ∧
      (if number.exponent = [] then []
        else letter :: ((if number.negativeExponent then ['-'] else sign) ++
          number.exponent.map Nat.digitChar)).foldl step
          ⟨done, .number phase ⟨number.negative, number.whole, number.fraction, false, []⟩⟩ =
        ⟨done, .number next number⟩ := by
  obtain ⟨hdigits, _, hexponent⟩ := hproper
  obtain ⟨negative, whole, fraction, negativeExponent, exponent⟩ := number
  dsimp only at hdigits hexponent ⊢
  cases exponent with
  | nil =>
      -- the text may end in the phase that is reached
      rw [hexponent rfl]
      refine ⟨phase, ?_, rfl⟩
      rcases hphase with rfl | rfl | rfl <;> rfl
  | cons first rest =>
      have hfirst : first < 10 := hdigits first (by simp)
      have hrest : ∀ value ∈ rest, value < 10 := fun value hvalue =>
        hdigits value (by simp [hvalue])
      -- the letter comes, maybe a sign, and then at least one digit
      have hbegin : ∃ middle, (middle = Number.Phase.letter ∨ middle = .exponentSign) ∧
          (letter :: (if negativeExponent then ['-'] else sign)).foldl step
              ⟨done, .number phase ⟨negative, whole, fraction, false, []⟩⟩ =
            ⟨done, .number middle ⟨negative, whole, fraction, negativeExponent, []⟩⟩ := by
        simp only [List.mem_cons, List.not_mem_nil, or_false] at hletter hsign
        have hword : step ⟨done, .number phase ⟨negative, whole, fraction, false, []⟩⟩ letter =
            ⟨done, .number .letter ⟨negative, whole, fraction, false, []⟩⟩ := by
          rcases hletter with rfl | rfl <;> rcases hphase with rfl | rfl | rfl <;> rfl
        rw [List.foldl_cons, hword]
        cases negativeExponent with
        | true => exact ⟨.exponentSign, Or.inr rfl, rfl⟩
        | false =>
            rcases hsign with rfl | rfl
            · exact ⟨.letter, Or.inl rfl, rfl⟩
            · exact ⟨.exponentSign, Or.inr rfl, rfl⟩
      obtain ⟨middle, hmiddle, hbegin⟩ := hbegin
      have hdigit : step ⟨done, .number middle ⟨negative, whole, fraction, negativeExponent, []⟩⟩
          (Nat.digitChar first) =
            ⟨done, .number .exponent ⟨negative, whole, fraction, negativeExponent, [first]⟩⟩ :=
        stepNumber_digitChar hfirst fun char hdigit hvalue => by
          rcases hmiddle with rfl | rfl <;> simp [stepNumber, hdigit, hvalue]
      have hadd : ∀ before value char, char.isDigit = true → digit char = value →
          stepNumber done .exponent ⟨negative, whole, fraction, negativeExponent, before⟩ char =
            ⟨done, .number .exponent
              ⟨negative, whole, fraction, negativeExponent, before ++ [value]⟩⟩ := by
        intro before value char hdigit hvalue
        simp [stepNumber, hdigit, hvalue]
      have hmore := foldl_step_digits (⟨negative, whole, fraction, negativeExponent, ·⟩) hadd hrest
        [first]
      refine ⟨.exponent, rfl, ?_⟩
      rw [if_neg (List.cons_ne_nil _ _), ← List.cons_append, List.foldl_append, hbegin,
        List.map_cons, List.foldl_cons, hdigit, hmore]
      rfl

/-- **A number** is read from each of its texts, and may end behind it. -/
theorem foldl_step_number {chars : List Char} (hchars : number.IsText chars) (done : List Token) :
    ∃ phase, Number.Phase.complete phase = true ∧
      chars.foldl step ⟨done, .between⟩ = ⟨done, .number phase number⟩ := by
  obtain ⟨hproper, letter, hletter, sign, hsign, rfl⟩ := hchars
  have hfraction : ∀ digit ∈ number.fraction, digit < 10 := fun digit hdigit =>
    hproper.digits digit (by simp [hdigit])
  obtain ⟨phase, hphase, hwhole⟩ := foldl_step_whole hproper done
  obtain ⟨next, hnext, hfraction⟩ := foldl_step_fraction hfraction hphase done
  obtain ⟨last, hlast, hexponent⟩ := foldl_step_exponent hproper hletter hsign hnext done
  refine ⟨last, hlast, ?_⟩
  rw [Number.text, List.foldl_append, List.foldl_append, hwhole, hfraction, hexponent]

end Lexer

/-! ## Behind a token -/

/-- The characters that mean nothing between two tokens. -/
def blanks : List Char :=
  [' ', '\t', '\n', '\r']

namespace Lexer

/-- The characters that may follow a token in an array, in an object and at the end. -/
def delimiters : List Char :=
  blanks ++ [',', ':', ']', '}']

/-- The state in which the tokens `done` are complete if the text ends here or goes on with a
delimiter. -/
structure Settled (done : List Token) (lexer : Lexer) : Prop where
  finish : lexer.finish = done.reverse
  step : ∀ char ∈ delimiters, lexer.step char = start done char

theorem settled_between (done : List Token) : Settled done ⟨done, .between⟩ :=
  ⟨rfl, fun _ _ => rfl⟩

theorem settled_number {phase : Number.Phase} (hphase : phase.complete = true) (number : Number)
    (done : List Token) : Settled (.number number :: done) ⟨done, .number phase number⟩ where
  finish := by simp [Lexer.finish, hphase]
  step char hchar := by
    have hother : char.isDigit = false ∧ char ≠ '.' ∧ char ≠ 'e' ∧ char ≠ 'E' ∧ char ≠ '+' ∧
        char ≠ '-' := by
      simp only [delimiters, blanks, List.mem_append, List.mem_cons, List.not_mem_nil,
        or_false] at hchar
      rcases hchar with (rfl | rfl | rfl | rfl) | rfl | rfl | rfl | rfl <;> decide
    show stepNumber done phase number char = _
    simp [stepNumber, hother, hphase]

theorem start_of_mem_blanks {char : Char} (hchar : char ∈ blanks) (done : List Token) :
    start done char = ⟨done, .between⟩ := by
  simp only [blanks, List.mem_cons, List.not_mem_nil, or_false] at hchar
  rcases hchar with rfl | rfl | rfl | rfl <;> rfl

/-- Blanks behind a token change nothing. -/
theorem Settled.foldl_blanks {done : List Token} {lexer : Lexer} (hlexer : Settled done lexer)
    {chars : List Char} (hchars : ∀ char ∈ chars, char ∈ blanks) :
    Settled done (chars.foldl Lexer.step lexer) := by
  induction chars generalizing lexer with
  | nil => exact hlexer
  | cons char chars ih =>
      rw [List.forall_mem_cons] at hchars
      refine ih ?_ hchars.2
      rw [hlexer.step char (List.mem_append_left _ hchars.1), start_of_mem_blanks hchars.1]
      exact settled_between done

end Lexer

end ToolchainMerge.Json
