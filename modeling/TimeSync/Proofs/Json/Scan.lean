import Mathlib
import TimeSync.Json.Token

/-!
# Cutting a text as it was written

The text of a sequence of tokens is cut into the same tokens again.  Strings may hold any
characters and numbers any digits; the only condition is that two tokens that have no
bounds of their own, such as two numbers, do not follow each other.
-/

namespace TimeSync

/-- Whether the digits of a number are as they can be read: digits before the point, without
a zero that is superfluous, and digits in an exponent. -/
structure NumberText.Plain (written : NumberText) : Prop where
  whole : ∀ digit ∈ written.whole, digit < 10
  someWhole : written.whole ≠ []
  noZero : written.whole.head? = some 0 → written.whole.length ≤ 1
  fraction : ∀ digit ∈ written.fraction, digit < 10
  exponent : ∀ negative digits, written.exponent = some (negative, digits) →
    digits ≠ [] ∧ ∀ digit ∈ digits, digit < 10

namespace Json

/-- Whether a text does not go on with a character of some kind. -/
def Stops (kind : Char → Bool) (chars : List Char) : Prop :=
  ∀ char ∈ chars.head?, kind char = false

theorem stops_nil (kind : Char → Bool) : Stops kind [] := by
  intro char first
  cases first

theorem stops_cons {kind : Char → Bool} {char : Char} (other : kind char = false)
    (chars : List Char) : Stops kind (char :: chars) := by
  intro first same
  cases same
  exact other

theorem span_of_stops {kind : Char → Bool} {first rest : List Char}
    (all : ∀ char ∈ first, kind char = true) (stops : Stops kind rest) :
    (first ++ rest).takeWhile kind = first ∧ (first ++ rest).dropWhile kind = rest := by
  have ends : rest.takeWhile kind = [] ∧ rest.dropWhile kind = rest := by
    cases rest with
    | nil => exact ⟨rfl, rfl⟩
    | cons char chars =>
      have other := stops char rfl
      simp [other]
  rw [List.takeWhile_append_of_pos all, List.dropWhile_append_of_pos all, ends.1, ends.2,
    List.append_nil]
  exact ⟨rfl, rfl⟩

theorem isDigit_digitChar {digit : Nat} (small : digit < 10) :
    (Nat.digitChar digit).isDigit = true ∧ (Nat.digitChar digit).toNat - 48 = digit := by
  have all : ∀ digit : Fin 10, (Nat.digitChar digit.val).isDigit = true ∧
      (Nat.digitChar digit.val).toNat - 48 = digit.val := by decide
  exact all ⟨digit, small⟩

theorem isDigit_ofDigitValues {digits : List Nat} (small : ∀ digit ∈ digits, digit < 10) :
    ∀ char ∈ Text.ofDigitValues digits, char.isDigit = true := by
  intro char member
  obtain ⟨digit, listed, rfl⟩ := List.mem_map.mp member
  exact (isDigit_digitChar (small digit listed)).1

theorem leadingDigits_ofDigitValues {digits : List Nat} (small : ∀ digit ∈ digits, digit < 10)
    {rest : List Char} (stops : Stops Char.isDigit rest) :
    leadingDigits (Text.ofDigitValues digits ++ rest) = (digits, rest) := by
  obtain ⟨taken, dropped⟩ := span_of_stops (isDigit_ofDigitValues small) stops
  have values : (Text.ofDigitValues digits).map (fun char => char.toNat - 48) = digits := by
    rw [Text.ofDigitValues, List.map_map]
    refine (List.map_congr_left fun digit listed => ?_).trans digits.map_id
    exact (isDigit_digitChar (small digit listed)).2
  rw [leadingDigits, taken, dropped, values]

theorem digits?_ofDigitValues {digits : List Nat} (someDigit : digits ≠ [])
    (small : ∀ digit ∈ digits, digit < 10) :
    Text.digits? (Text.ofDigitValues digits) = some digits := by
  have values : (Text.ofDigitValues digits).mapM Text.digitValue? = some digits := by
    clear someDigit
    induction digits with
    | nil => rfl
    | cons digit digits induction =>
      obtain ⟨first, others⟩ := List.forall_mem_cons.mp small
      obtain ⟨isDigit, value⟩ := isDigit_digitChar first
      have rest := induction others
      rw [Text.ofDigitValues] at rest
      simp [Text.ofDigitValues, Text.digitValue?, isDigit, value, rest]
  cases digits with
  | nil => exact absurd rfl someDigit
  | cons digit digits => exact values

def fractionChars : List Nat → List Char
  | [] => []
  | fraction => '.' :: Text.ofDigitValues fraction

def exponentChars : Option (Bool × List Nat) → List Char
  | none => []
  | some (negative, digits) => 'e' :: (if negative then '-' else '+') :: Text.ofDigitValues digits

theorem numberChars_eq (written : NumberText) :
    numberChars written = (if written.negative then ['-'] else []) ++
      Text.ofDigitValues written.whole ++ fractionChars written.fraction ++
      exponentChars written.exponent := by
  obtain ⟨negative, whole, fraction, exponent⟩ := written
  cases fraction <;> cases exponent <;> rfl

theorem stops_exponentChars (exponent : Option (Bool × List Nat)) :
    Stops Char.isDigit (exponentChars exponent) := by
  cases exponent with
  | none => exact stops_nil _
  | some exponent => exact stops_cons (by decide) _

theorem exponentText?_exponentChars {negative : Bool} {digits : List Nat}
    (someDigit : digits ≠ []) (small : ∀ digit ∈ digits, digit < 10) :
    exponentText? ((if negative then '-' else '+') :: Text.ofDigitValues digits) =
      some (negative, digits) := by
  have read := digits?_ofDigitValues someDigit small
  cases negative <;> simp [exponentText?, read]

theorem numberText?_of_unsigned {chars unsigned : List Char} {written : NumberText}
    (plain : written.Plain)
    (sign : ('-' :: unsigned = chars ∧ written.negative = true) ∨
      (unsigned = chars ∧ chars.head? ≠ some '-' ∧ written.negative = false))
    (text : unsigned = Text.ofDigitValues written.whole ++
      (fractionChars written.fraction ++ exponentChars written.exponent)) :
    numberText? chars = some written := by
  obtain ⟨negative, whole, fraction, exponent⟩ := written
  obtain ⟨wholeSmall, someWhole, noZero, fractionSmall, exponentPlain⟩ := plain
  dsimp only at *
  have restStops : Stops Char.isDigit (fractionChars fraction ++ exponentChars exponent) := by
    cases fraction with
    | nil => exact stops_exponentChars exponent
    | cons digit fraction => exact stops_cons (by decide) _
  have read := leadingDigits_ofDigitValues wholeSmall restStops
  rw [← text] at read
  have proper : ¬ (whole = [] ∨ (whole.head? = some 0 ∧ 1 < whole.length)) := by
    rintro (nothing | ⟨zero, more⟩)
    · exact someWhole nothing
    · exact absurd (noZero zero) (by omega)
  unfold numberText?
  split
  rename_i readNegative readUnsigned found
  have same : (readNegative, readUnsigned) = (negative, unsigned) := by
    rw [← found]
    rcases sign with ⟨rfl, rfl⟩ | ⟨rfl, other, rfl⟩
    · rfl
    · split
      · exact absurd rfl other
      · rfl
  cases same
  simp only [read, proper, if_false]
  have exponentRead : exponent = none ∨ ∃ negative digits, exponent = some (negative, digits) ∧
      exponentText? ((if negative then '-' else '+') :: Text.ofDigitValues digits) =
        some (negative, digits) := by
    cases exponent with
    | none => exact .inl rfl
    | some exponent =>
      obtain ⟨someDigit, small⟩ := exponentPlain exponent.1 exponent.2 rfl
      exact .inr ⟨exponent.1, exponent.2, rfl, exponentText?_exponentChars someDigit small⟩
  cases fraction with
  | nil =>
    rcases exponentRead with rfl | ⟨negative, digits, rfl, exponentRead⟩
    · rfl
    · simp [fractionChars, exponentChars, exponentRead]
  | cons digit fraction =>
    have fractionRead := leadingDigits_ofDigitValues fractionSmall (stops_exponentChars exponent)
    rcases exponentRead with rfl | ⟨negative, digits, rfl, exponentRead⟩
    · simp only [fractionChars, List.cons_append, fractionRead]
      rfl
    · simp only [fractionChars, List.cons_append, fractionRead]
      simp [exponentChars, exponentRead]

theorem numberText?_numberChars {written : NumberText} (plain : written.Plain) :
    numberText? (numberChars written) = some written := by
  have text := numberChars_eq written
  rw [List.append_assoc, List.append_assoc] at text
  refine numberText?_of_unsigned plain ?_ rfl
  cases negative : written.negative with
  | true => exact .inl ⟨by simp [text, negative], rfl⟩
  | false =>
    have unsigned : numberChars written = Text.ofDigitValues written.whole ++
        (fractionChars written.fraction ++ exponentChars written.exponent) := by
      simp [text, negative]
    refine .inr ⟨unsigned.symm, ?_, rfl⟩
    cases whole : written.whole with
    | nil => exact absurd whole plain.someWhole
    | cons digit digits =>
      have isDigit := (isDigit_digitChar (plain.whole digit (whole ▸ List.mem_cons_self))).1
      rw [unsigned, whole]
      intro first
      rw [Option.some.inj first] at isDigit
      exact absurd isDigit (by decide)

theorem isNumberChar_of_isDigit {char : Char} (isDigit : char.isDigit = true) :
    isNumberChar char = true := by
  simp [isNumberChar, isDigit]

theorem isNumberChar_numberChars {written : NumberText} (plain : written.Plain) :
    ∀ char ∈ numberChars written, isNumberChar char = true := by
  have signLetter : isNumberChar '-' = true ∧ isNumberChar '+' = true ∧
      isNumberChar '.' = true ∧ isNumberChar 'e' = true := by decide
  have digits {values : List Nat} (small : ∀ digit ∈ values, digit < 10) :
      ∀ char ∈ Text.ofDigitValues values, isNumberChar char = true :=
    fun char member => isNumberChar_of_isDigit (isDigit_ofDigitValues small char member)
  have fraction : ∀ char ∈ fractionChars written.fraction, isNumberChar char = true := by
    cases given : written.fraction with
    | nil => exact fun char member => nomatch member
    | cons digit fraction =>
      exact List.forall_mem_cons.mpr ⟨signLetter.2.2.1, digits (given ▸ plain.fraction)⟩
  have exponent : ∀ char ∈ exponentChars written.exponent, isNumberChar char = true := by
    cases given : written.exponent with
    | none => exact fun char member => nomatch member
    | some exponent =>
      have small := (plain.exponent exponent.1 exponent.2 given).2
      refine List.forall_mem_cons.mpr ⟨signLetter.2.2.2,
        List.forall_mem_cons.mpr ⟨?_, digits small⟩⟩
      split
      · exact signLetter.1
      · exact signLetter.2.1
  intro char member
  simp only [numberChars_eq, List.mem_append] at member
  rcases member with ((member | member) | member) | member
  · split at member
    · rw [List.mem_singleton.mp member]
      exact signLetter.1
    · cases member
  · exact digits plain.whole char member
  · exact fraction char member
  · exact exponent char member

/-- What is read of a character that was written in a string. -/
def Piece.ofChar (char : Char) : Piece :=
  if char.toNat < 32 ∧ char ∉ ['\x08', '\x0c', '\n', '\r', '\t'] then
    .unit char.toNat
  else
    .char char

theorem hexDigits_four (number : Nat) :
    Text.hexDigits 4 number =
      [Nat.digitChar (number / 16 / 16 / 16 % 16), Nat.digitChar (number / 16 / 16 % 16),
        Nat.digitChar (number / 16 % 16), Nat.digitChar (number % 16)] := rfl

theorem pieces?_unitText {unit : Nat} (small : unit < 65536) (rest : List Char) :
    pieces? (unitText unit ++ rest) =
      (pieces? rest).map fun read => (.unit unit :: read.1, read.2) := by
  have value (number : Nat) :
      Text.hexValue? (Nat.digitChar (number % 16)) = some (number % 16) :=
    Text.hexValue?_digitChar (Nat.mod_lt _ (by omega))
  have whole : 4096 * (unit / 16 / 16 / 16 % 16) + 256 * (unit / 16 / 16 % 16) +
      16 * (unit / 16 % 16) + unit % 16 = unit := by omega
  simp only [unitText, hexDigits_four, List.cons_append, List.nil_append, pieces?, value,
    Option.bind_eq_bind, Option.bind_some, whole]
  cases pieces? rest <;> rfl

theorem pieces?_escaped {letter char : Char} (known : escaped? letter = some char)
    (rest : List Char) :
    pieces? ('\\' :: letter :: rest) =
      (pieces? rest).map fun read => (.char char :: read.1, read.2) := by
  rw [pieces?]
  · simp only [known, Option.bind_eq_bind, Option.bind_some]
    cases pieces? rest <;> rfl
  · rintro _ _ _ _ _ rfl
    cases known

theorem pieces?_charText (char : Char) (rest : List Char) :
    pieces? (charText char ++ rest) =
      (pieces? rest).map fun read => (Piece.ofChar char :: read.1, read.2) := by
  unfold charText
  split
  case h_8 notQuote notBackslash notB notF notN notR notT =>
    split
    · rename_i control
      have listed : char ∉ ['\x08', '\x0c', '\n', '\r', '\t'] := by
        simp only [List.mem_cons, List.not_mem_nil, or_false, not_or]
        exact ⟨notB, notF, notN, notR, notT⟩
      rw [pieces?_unitText (by omega), Piece.ofChar, if_pos ⟨control, listed⟩]
    · rename_i plain
      rw [Piece.ofChar, if_neg fun control => plain control.1]
      have ordinary : ¬ (char = '\\' ∨ char.toNat < 32) :=
        not_or.mpr ⟨notBackslash, plain⟩
      rw [List.singleton_append, pieces?]
      · simp only [ordinary, if_false]
        cases pieces? rest <;> rfl
      · exact notQuote
      · exact fun _ _ _ _ _ same => absurd same notBackslash
      · exact fun _ _ same => absurd same notBackslash
  all_goals exact pieces?_escaped rfl rest

theorem pieces?_flatMap_charText (content rest : List Char) :
    pieces? (content.flatMap charText ++ '"' :: rest) =
      some (content.map Piece.ofChar, rest) := by
  induction content with
  | nil => rfl
  | cons char content induction =>
    rw [List.flatMap_cons, List.append_assoc, pieces?_charText, induction]
    rfl

theorem characters?_unit {unit : Nat} (small : unit < 0xd800) (rest : List Piece) :
    characters? (.unit unit :: rest) = (Char.ofNat unit :: ·) <$> characters? rest := by
  have high : isHighSurrogate unit = false := by
    simp only [isHighSurrogate, decide_eq_false_iff_not]
    omega
  have low : isLowSurrogate unit = false := by
    simp only [isLowSurrogate, decide_eq_false_iff_not]
    omega
  cases rest with
  | nil => simp [characters?, high, low]
  | cons piece rest =>
    cases piece with
    | char char => simp [characters?, high, low]
    | unit next => simp [characters?, high, low]

theorem characters?_map_ofChar (content : List Char) :
    characters? (content.map Piece.ofChar) = some content := by
  induction content with
  | nil => rfl
  | cons char content induction =>
    rw [List.map_cons, Piece.ofChar]
    split
    · rename_i control
      rw [characters?_unit (by omega), induction, Char.ofNat_toNat]
      rfl
    · rw [characters?, induction]
      rfl

namespace Token

/-- Whether a token can be read as it is written. -/
def Plain : Token → Prop
  | .number written => written.Plain
  | .text content => content.isSome
  | _ => True

/-- Whether a token has no bounds of its own. -/
def Loose : Token → Prop
  | .null | .bool _ | .number _ => True
  | _ => False

/-- Whether a text may follow a token that has no bounds of its own. -/
def Apart (token : Token) (after : List Char) : Prop :=
  token.Loose → Stops isNumberChar after ∧ Stops Char.isAlpha after

end Token

theorem scan_of_next? {first : Char} {rest after : List Char} {token : Token}
    (ink : isSpace first = false) (found : next? first rest = some (token, after)) :
    scan (first :: rest) = (token :: ·) <$> scan after := by
  rw [scan, ink]
  simp only [Bool.false_eq_true, if_false]
  split
  · rename_i nothing
    cases found.symm.trans nothing
  · rename_i token' after' same
    cases found.symm.trans same
    rfl

theorem scan_text (content : String) (after : List Char) :
    scan ((Token.text (some content)).chars ++ after) =
      (Token.text (some content) :: ·) <$> scan after := by
  refine scan_of_next? (by decide) ?_
  have read := pieces?_flatMap_charText content.toList after
  simp [next?, punctuation?, List.append_assoc, read, characters?_map_ofChar]

theorem of_isNumberChar {char : Char} (number : isNumberChar char = true) :
    isSpace char = false ∧ punctuation? char = none ∧ char ≠ '"' := by
  refine ⟨?_, ?_, ?_⟩
  · rw [← Bool.not_eq_true]
    intro space
    simp only [isSpace, List.mem_cons, List.not_mem_nil, or_false, decide_eq_true_eq] at space
    rcases space with rfl | rfl | rfl | rfl <;> exact absurd number (by decide)
  · unfold punctuation?
    split
    case h_7 => rfl
    all_goals exact absurd number (by decide)
  · rintro rfl
    exact absurd number (by decide)

theorem scan_number {written : NumberText} (plain : written.Plain) {after : List Char}
    (stops : Stops isNumberChar after) :
    scan ((Token.number written).chars ++ after) = (Token.number written :: ·) <$> scan after := by
  have all := isNumberChar_numberChars plain
  have read := numberText?_numberChars plain
  change scan (numberChars written ++ after) = _
  cases chars : numberChars written with
  | nil =>
    rw [chars] at read
    cases read
  | cons first rest =>
    rw [chars] at all read
    obtain ⟨number, others⟩ := List.forall_mem_cons.mp all
    obtain ⟨taken, dropped⟩ := span_of_stops others stops
    obtain ⟨ink, notPunctuation, notQuote⟩ := of_isNumberChar number
    refine scan_of_next? ink ?_
    simp [next?, notPunctuation, notQuote, number, taken, dropped, read]

theorem scan_word {word : List Char} {token : Token} (known : word? word = some token)
    {after : List Char} (stops : Stops Char.isAlpha after) :
    scan (word ++ after) = (token :: ·) <$> scan after := by
  have letters : ∃ first rest, word = first :: rest ∧ isSpace first = false ∧
      punctuation? first = none ∧ first ≠ '"' ∧ isNumberChar first = false ∧
      ∀ char ∈ rest, char.isAlpha = true := by
    unfold word? at known
    split at known
    · rename_i same
      exact ⟨_, _, same, by decide, by decide, by decide, by decide, by simp⟩
    · split at known
      · rename_i same
        exact ⟨_, _, same, by decide, by decide, by decide, by decide, by simp⟩
      · split at known
        · rename_i same
          exact ⟨_, _, same, by decide, by decide, by decide, by decide, by simp⟩
        · cases known
  obtain ⟨first, rest, rfl, ink, notPunctuation, notQuote, notNumber, others⟩ := letters
  obtain ⟨taken, dropped⟩ := span_of_stops others stops
  refine scan_of_next? ink ?_
  simp [next?, notPunctuation, notQuote, notNumber, taken, dropped, known]

theorem scan_chars {token : Token} (plain : token.Plain) {after : List Char}
    (apart : token.Apart after) :
    scan (token.chars ++ after) = (token :: ·) <$> scan after := by
  cases token with
  | openArray | closeArray | openObject | closeObject | comma | colon =>
    exact scan_of_next? (by decide) rfl
  | null => exact scan_word rfl (apart trivial).2
  | bool value => cases value <;> exact scan_word rfl (apart trivial).2
  | number written => exact scan_number plain (apart trivial).1
  | text content =>
    obtain ⟨content, rfl⟩ := Option.isSome_iff_exists.mp plain
    exact scan_text content after

/-- Only at a token with bounds of its own does a text go on after one that has none. -/
theorem stops_chars {token : Token} (tight : ¬ token.Loose) (after : List Char) :
    Stops isNumberChar (token.chars ++ after) ∧ Stops Char.isAlpha (token.chars ++ after) := by
  cases token with
  | null | bool value | number written => exact absurd trivial tight
  | openArray | closeArray | openObject | closeObject | comma | colon | text content =>
    exact ⟨stops_cons (by decide) _, stops_cons (by decide) _⟩

/-- Whether no two tokens without bounds of their own follow each other. -/
def Spaced (tokens : List Token) : Prop :=
  tokens.IsChain fun first second => first.Loose → ¬ second.Loose

/-- A text that was written is cut into the tokens that were written. -/
theorem scan_flatMap_chars {tokens : List Token} (plain : ∀ token ∈ tokens, token.Plain)
    (spaced : Spaced tokens) : scan (tokens.flatMap Token.chars) = some tokens := by
  induction tokens with
  | nil => simp [scan]
  | cons token tokens induction =>
    obtain ⟨first, others⟩ := List.forall_mem_cons.mp plain
    have apart : token.Apart (tokens.flatMap Token.chars) := by
      intro loose
      cases tokens with
      | nil => exact ⟨stops_nil _, stops_nil _⟩
      | cons next rest =>
        exact stops_chars ((List.isChain_cons_cons.mp spaced).1 loose) _
    rw [List.flatMap_cons, scan_chars first apart, induction others spaced.tail]
    rfl

end Json

end TimeSync
