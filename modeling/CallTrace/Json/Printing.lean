/-!
# Printing JSON

Strings, arrays and objects as text, indented by two spaces a level. Only what a document needs is
printed; numbers come as their digits.
-/

namespace CallTrace.Json

/-- A hexadecimal digit. -/
def hexDigit (n : Nat) : Char :=
  Nat.digitChar (n % 16)

/-- How a character is written between quotation marks. -/
def escape (c : Char) : List Char :=
  match c with
  | '"' => ['\\', '"']
  | '\\' => ['\\', '\\']
  | '\x08' => ['\\', 'b']
  | '\x0c' => ['\\', 'f']
  | '\n' => ['\\', 'n']
  | '\r' => ['\\', 'r']
  | '\t' => ['\\', 't']
  | c =>
    if c.toNat < 0x20 then ['\\', 'u', '0', '0', hexDigit (c.toNat / 16), hexDigit c.toNat] else [c]

/-- A text as a string of JSON. -/
def quote (text : String) : List Char :=
  ['"'] ++ text.toList.flatMap escape ++ ['"']

/-- The spaces before a line at a depth. -/
def indent (depth : Nat) : List Char :=
  List.replicate (2 * depth) ' '

/-- Items between two brackets, each on lines of its own one step deeper than the brackets; with
no items the brackets touch. -/
def block (left right : Char) (depth : Nat) (items : List (List Char)) : List Char :=
  if items.isEmpty then [left, right]
  else
    [left, '\n'] ++ [',', '\n'].intercalate (items.map fun item => indent (depth + 1) ++ item)
      ++ ['\n'] ++ indent depth ++ [right]

/-- An array at a depth, given its printed items. -/
def arrayBlock (depth : Nat) (items : List (List Char)) : List Char :=
  block '[' ']' depth items

/-- An object at a depth, given its keys and printed values. -/
def objectBlock (depth : Nat) (members : List (String × List Char)) : List Char :=
  block '\x7b' '\x7d' depth (members.map fun member => quote member.1 ++ [':', ' '] ++ member.2)

end CallTrace.Json
