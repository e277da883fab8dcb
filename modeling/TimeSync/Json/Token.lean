import TimeSync.Json.Basic
import TimeSync.Text.Hexadecimal

/-!
# The tokens of JSON text

A text is cut into punctuation, words, numbers and strings.  `Token.text` is
the way each is written and `Token.scan` cuts a whole text, refusing what is
no token.
-/

namespace TimeSync.Json

inductive Token where
  | openArray
  | closeArray
  | openObject
  | closeObject
  | comma
  | colon
  | null
  | bool (value : Bool)
  | number (written : NumberText)
  | text (content : Option String)
deriving DecidableEq

/-- A string between its quotes: characters, and the units that escapes give in
hexadecimal. -/
inductive Piece where
  | char (value : Char)
  | unit (value : Nat)
deriving DecidableEq

def escaped? : Char → Option Char
  | '"' => some '"'
  | '\\' => some '\\'
  | '/' => some '/'
  | 'b' => some '\x08'
  | 'f' => some '\x0c'
  | 'n' => some '\n'
  | 'r' => some '\r'
  | 't' => some '\t'
  | _ => none

/-- Reads a string up to its closing quote, and what follows it. -/
def pieces? : List Char → Option (List Piece × List Char)
  | [] => none
  | '"' :: rest => some ([], rest)
  | '\\' :: 'u' :: first :: second :: third :: fourth :: rest => do
    let unit := 4096 * (← Text.hexValue? first) + 256 * (← Text.hexValue? second)
      + 16 * (← Text.hexValue? third) + (← Text.hexValue? fourth)
    let (pieces, after) ← pieces? rest
    return (.unit unit :: pieces, after)
  | '\\' :: letter :: rest => do
    let char ← escaped? letter
    let (pieces, after) ← pieces? rest
    return (.char char :: pieces, after)
  | char :: rest =>
    if char = '\\' ∨ char.toNat < 32 then
      none
    else do
      let (pieces, after) ← pieces? rest
      return (.char char :: pieces, after)

def isHighSurrogate (unit : Nat) : Bool := 0xd800 ≤ unit ∧ unit < 0xdc00

def isLowSurrogate (unit : Nat) : Bool := 0xdc00 ≤ unit ∧ unit < 0xe000

/-- The characters of a string, if its surrogates come in pairs. -/
def characters? : List Piece → Option (List Char)
  | [] => some []
  | .char char :: rest => (char :: ·) <$> characters? rest
  | .unit high :: .unit low :: rest =>
    if isHighSurrogate high then
      if isLowSurrogate low then
        let code := 0x10000 + 0x400 * (high - 0xd800) + (low - 0xdc00)
        (Char.ofNat code :: ·) <$> characters? rest
      else
        none
    else if isLowSurrogate high then
      none
    else
      (Char.ofNat high :: ·) <$> characters? (.unit low :: rest)
  | .unit unit :: rest =>
    if isHighSurrogate unit ∨ isLowSurrogate unit then
      none
    else
      (Char.ofNat unit :: ·) <$> characters? rest

def isNumberChar (char : Char) : Bool :=
  char.isDigit ∨ char ∈ ['-', '+', '.', 'e', 'E']

/-- The digits at the start of a text, and what follows them. -/
def leadingDigits (chars : List Char) : List Nat × List Char :=
  ((chars.takeWhile Char.isDigit).map fun char => char.toNat - 48,
    chars.dropWhile Char.isDigit)

/-- Reads an exponent, its letter left out, to the end of the text. -/
def exponentText? (chars : List Char) : Option (Bool × List Nat) := do
  let (negative, unsigned) := match chars with
    | '-' :: rest => (true, rest)
    | '+' :: rest => (false, rest)
    | _ => (false, chars)
  return (negative, ← Text.digits? unsigned)

/-- Reads a number that fills the text: no superfluous zero before it, a digit
after a point and after an exponent's letter. -/
def numberText? (chars : List Char) : Option NumberText := do
  let (negative, unsigned) := match chars with
    | '-' :: rest => (true, rest)
    | _ => (false, chars)
  let (whole, rest) := leadingDigits unsigned
  if whole = [] ∨ (whole.head? = some 0 ∧ 1 < whole.length) then
    none
  else do
    let (fraction, rest) ← match rest with
      | '.' :: rest =>
        match leadingDigits rest with
        | ([], _) => none
        | digits => some digits
      | _ => some ([], rest)
    let exponent ← match rest with
      | [] => some none
      | letter :: rest =>
        if letter = 'e' ∨ letter = 'E' then some <$> exponentText? rest else none
    return { negative, whole, fraction, exponent }

def isSpace (char : Char) : Bool := char ∈ [' ', '\t', '\n', '\r']

def punctuation? : Char → Option Token
  | '[' => some .openArray
  | ']' => some .closeArray
  | '{' => some .openObject
  | '}' => some .closeObject
  | ',' => some .comma
  | ':' => some .colon
  | _ => none

def word? (letters : List Char) : Option Token :=
  if letters = ['n', 'u', 'l', 'l'] then
    some .null
  else if letters = ['t', 'r', 'u', 'e'] then
    some (.bool true)
  else if letters = ['f', 'a', 'l', 's', 'e'] then
    some (.bool false)
  else
    none

/-- What comes first in a text that does not start with space, and the rest. -/
def next? (first : Char) (rest : List Char) : Option (Token × List Char) :=
  match punctuation? first with
  | some token => some (token, rest)
  | none =>
    if first = '"' then do
      let (pieces, after) ← pieces? rest
      return (.text ((characters? pieces).map String.ofList), after)
    else if isNumberChar first then do
      let written ← numberText? (first :: rest.takeWhile isNumberChar)
      return (.number written, rest.dropWhile isNumberChar)
    else do
      let token ← word? (first :: rest.takeWhile Char.isAlpha)
      return (token, rest.dropWhile Char.isAlpha)

theorem length_dropWhile_le (test : Char → Bool) (chars : List Char) :
    (chars.dropWhile test).length ≤ chars.length :=
  (List.dropWhile_sublist test).length_le

theorem length_of_pieces? {chars after : List Char} {pieces : List Piece}
    (found : pieces? chars = some (pieces, after)) :
    after.length < chars.length := by
  fun_induction pieces? chars generalizing pieces with
  | case1 => cases found
  | case2 => simp_all
  | case3 first second third fourth rest ih =>
    simp only [Option.bind_eq_bind, Option.bind_eq_some_iff, Option.pure_def,
      Option.some.injEq, Prod.mk.injEq] at found
    obtain ⟨_, _, _, _, _, _, _, _, ⟨inner, after'⟩, step, _, rfl⟩ := found
    have := ih step
    simp only [List.length_cons] at this ⊢
    omega
  | case4 letter rest _ ih =>
    simp only [Option.bind_eq_bind, Option.bind_eq_some_iff, Option.pure_def,
      Option.some.injEq, Prod.mk.injEq] at found
    obtain ⟨_, _, ⟨inner, after'⟩, step, _, rfl⟩ := found
    have := ih step
    simp only [List.length_cons] at this ⊢
    omega
  | case5 => cases found
  | case6 char rest _ _ _ _ ih =>
    simp only [Option.bind_eq_bind, Option.bind_eq_some_iff, Option.pure_def,
      Option.some.injEq, Prod.mk.injEq] at found
    obtain ⟨⟨inner, after'⟩, step, _, rfl⟩ := found
    have := ih step
    simp only [List.length_cons] at this ⊢
    omega

theorem length_of_next? {first : Char} {rest after : List Char} {token : Token}
    (found : next? first rest = some (token, after)) :
    after.length ≤ rest.length := by
  unfold next? at found
  split at found
  · simp only [Option.some.injEq, Prod.mk.injEq] at found
    obtain ⟨_, rfl⟩ := found
    exact Nat.le_refl _
  · split at found
    · simp only [Option.bind_eq_bind, Option.bind_eq_some_iff, Option.pure_def,
        Option.some.injEq, Prod.mk.injEq] at found
      obtain ⟨⟨pieces, after'⟩, step, _, rfl⟩ := found
      exact Nat.le_of_lt (length_of_pieces? step)
    · split at found <;>
      · simp only [Option.bind_eq_bind, Option.bind_eq_some_iff, Option.pure_def,
          Option.some.injEq, Prod.mk.injEq] at found
        obtain ⟨_, _, _, rfl⟩ := found
        exact length_dropWhile_le _ _

def scan : List Char → Option (List Token)
  | [] => some []
  | first :: rest =>
    if isSpace first then
      scan rest
    else
      match _found : next? first rest with
      | none => none
      | some (token, after) => (token :: ·) <$> scan after
termination_by chars => chars.length
decreasing_by
  · simp
  · have := length_of_next? _found
    simp only [List.length_cons]
    omega

def unitText (unit : Nat) : List Char := '\\' :: 'u' :: Text.hexDigits 4 unit

def charText (char : Char) : List Char :=
  match char with
  | '"' => ['\\', '"']
  | '\\' => ['\\', '\\']
  | '\x08' => ['\\', 'b']
  | '\x0c' => ['\\', 'f']
  | '\n' => ['\\', 'n']
  | '\r' => ['\\', 'r']
  | '\t' => ['\\', 't']
  | _ =>
    if char.toNat < 32 then
      unitText char.toNat
    else
      [char]

/-- The way a number is written: its exponent always has a sign. -/
def numberChars (written : NumberText) : List Char :=
  (if written.negative then ['-'] else [])
    ++ Text.ofDigitValues written.whole
    ++ (match written.fraction with
      | [] => []
      | fraction => '.' :: Text.ofDigitValues fraction)
    ++ (match written.exponent with
      | none => []
      | some (negative, digits) =>
        'e' :: (if negative then '-' else '+') :: Text.ofDigitValues digits)

namespace Token

def chars : Token → List Char
  | .openArray => ['[']
  | .closeArray => [']']
  | .openObject => ['{']
  | .closeObject => ['}']
  | .comma => [',']
  | .colon => [':']
  | .null => ['n', 'u', 'l', 'l']
  | .bool true => ['t', 'r', 'u', 'e']
  | .bool false => ['f', 'a', 'l', 's', 'e']
  | .number written => numberChars written
  | .text content => '"' :: ((content.getD "").toList.flatMap charText ++ ['"'])

end Token

end TimeSync.Json
