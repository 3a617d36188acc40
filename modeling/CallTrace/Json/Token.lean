/-!
# Tokens of JSON

A text of JSON, cut into its tokens. A string may hold escapes that make up no text, namely halves
of surrogate pairs; it is still a token.
-/

namespace CallTrace.Json

/-- A token. A string is given by its text, if it makes up one. -/
inductive Token where
  | openBrace
  | closeBrace
  | openBracket
  | closeBracket
  | colon
  | comma
  | null
  | bool (value : Bool)
  | number
  | string (text : Option String)
deriving DecidableEq, Repr

/-! ## Strings -/

/-- One item between quotation marks: a character, or a code unit given by its number. -/
inductive StringItem where
  | char (c : Char)
  | unit (code : Nat)
deriving DecidableEq, Repr

/-- The value of a hexadecimal digit. -/
def hexDigit? (c : Char) : Option Nat :=
  if '0' ≤ c ∧ c ≤ '9' then some (c.toNat - '0'.toNat)
  else if 'a' ≤ c ∧ c ≤ 'f' then some (c.toNat - 'a'.toNat + 10)
  else if 'A' ≤ c ∧ c ≤ 'F' then some (c.toNat - 'A'.toNat + 10)
  else none

/-- The value of four hexadecimal digits. -/
def hexUnit? (a b c d : Char) : Option Nat := do
  return (((← hexDigit? a) * 16 + (← hexDigit? b)) * 16 + (← hexDigit? c)) * 16 + (← hexDigit? d)

/-- The character that stands behind a backslash for another one. -/
def escaped? : Char → Option Char
  | '"' => some '"'
  | '\\' => some '\\'
  | '/' => some '/'
  | 'b' => some '\x08'
  | 'f' => some '\x0c'
  | 'n' => some '\n'
  | 'r' => some '\r'
  | 't' => some '\t'
  | _ => none

/-- The items up to the closing quotation mark, and what follows it. -/
def readItems : List Char → Option (List StringItem × List Char)
  | [] => none
  | '"' :: rest => some ([], rest)
  | '\\' :: 'u' :: a :: b :: c :: d :: rest => do
    let code ← hexUnit? a b c d
    let (items, rest) ← readItems rest
    return (.unit code :: items, rest)
  | '\\' :: e :: rest => do
    let c ← escaped? e
    let (items, rest) ← readItems rest
    return (.char c :: items, rest)
  | c :: rest =>
    if c.toNat < 0x20 then none
    else do
      let (items, rest) ← readItems rest
      return (.char c :: items, rest)

/-- Whether a code unit is the first half of a pair. -/
def isHighHalf (code : Nat) : Bool :=
  0xd800 ≤ code && code ≤ 0xdbff

/-- Whether a code unit is the second half of a pair. -/
def isLowHalf (code : Nat) : Bool :=
  0xdc00 ≤ code && code ≤ 0xdfff

/-- The character of a pair of halves. -/
def joinHalves (high low : Nat) : Char :=
  Char.ofNat (0x10000 + (high - 0xd800) * 0x400 + (low - 0xdc00))

/-- The text of items, if every half has its other half behind it. -/
def textOfItems? : List StringItem → Option (List Char)
  | [] => some []
  | .char c :: rest => (textOfItems? rest).map (c :: ·)
  | .unit high :: .unit low :: rest =>
    if isHighHalf high then
      if isLowHalf low then (textOfItems? rest).map (joinHalves high low :: ·) else none
    else if isLowHalf high then none
    else (textOfItems? (.unit low :: rest)).map (Char.ofNat high :: ·)
  | .unit code :: rest =>
    if isHighHalf code || isLowHalf code then none
    else (textOfItems? rest).map (Char.ofNat code :: ·)

/-! ## Numbers -/

/-- What follows one or more digits. -/
def dropDigits? : List Char → Option (List Char)
  | c :: rest => if c.isDigit then some (rest.dropWhile Char.isDigit) else none
  | [] => none

/-- What follows the digits before the point: a zero, or digits of which the first is none. -/
def dropWhole? : List Char → Option (List Char)
  | '0' :: rest => some rest
  | text => dropDigits? text

/-- What follows a point with its digits, if there is a point. -/
def dropFraction? : List Char → Option (List Char)
  | '.' :: rest => dropDigits? rest
  | text => some text

/-- What follows the digits of an exponent, before which a sign may stand. -/
def dropSigned? : List Char → Option (List Char)
  | '+' :: rest => dropDigits? rest
  | '-' :: rest => dropDigits? rest
  | text => dropDigits? text

/-- What follows an exponent, if there is one. -/
def dropExponent? : List Char → Option (List Char)
  | 'e' :: rest => dropSigned? rest
  | 'E' :: rest => dropSigned? rest
  | text => some text

/-- What follows a number. -/
def dropNumber? (text : List Char) : Option (List Char) := do
  let text := match text with
    | '-' :: rest => rest
    | text => text
  dropExponent? (← dropFraction? (← dropWhole? text))

/-! ## Tokens -/

/-- Whether a character may stand between tokens. -/
def isSpace (c : Char) : Bool :=
  c = ' ' ∨ c = '\n' ∨ c = '\t' ∨ c = '\r'

/-- The token at the start of a text, and what follows it. -/
def readToken : List Char → Option (Token × List Char)
  | '\x7b' :: rest => some (.openBrace, rest)
  | '\x7d' :: rest => some (.closeBrace, rest)
  | '[' :: rest => some (.openBracket, rest)
  | ']' :: rest => some (.closeBracket, rest)
  | ':' :: rest => some (.colon, rest)
  | ',' :: rest => some (.comma, rest)
  | 'n' :: 'u' :: 'l' :: 'l' :: rest => some (.null, rest)
  | 't' :: 'r' :: 'u' :: 'e' :: rest => some (.bool true, rest)
  | 'f' :: 'a' :: 'l' :: 's' :: 'e' :: rest => some (.bool false, rest)
  | '"' :: rest => (readItems rest).map fun (items, rest) =>
    (.string ((textOfItems? items).map String.ofList), rest)
  | text => (dropNumber? text).map fun rest => (.number, rest)

/-- The tokens of a text, at most as many as `bound`. -/
def tokensWithin : Nat → List Char → Option (List Token)
  | 0, text => if text.all isSpace then some [] else none
  | bound + 1, text =>
    match text.dropWhile isSpace with
    | [] => some []
    | text => do
      let (token, rest) ← readToken text
      return token :: (← tokensWithin bound rest)

/-- The tokens of a text, which are no more than its characters. -/
def tokens? (text : List Char) : Option (List Token) :=
  tokensWithin text.length text

end CallTrace.Json
