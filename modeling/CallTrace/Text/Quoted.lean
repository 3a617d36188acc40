import CallTrace.Text.Printable
import CallTrace.Text.GraphemeExtend

/-!
# Quoted text

The form in which messages show a text that may hold anything: between quotation marks, with
quotation marks, backslashes and the usual controls escaped, and every other character without a
form of its own written as its number.
-/

namespace CallTrace.Text

/-- The escape `\u{…}` with the number in lower-case hexadecimal digits. -/
def numberEscape (c : Char) : List Char :=
  ['\\', 'u', '\x7b'] ++ Nat.toDigits 16 c.toNat ++ ['\x7d']

/-- How one character is written between quotation marks. -/
def escape (c : Char) : List Char :=
  match c with
  | '"' => ['\\', '"']
  | '\\' => ['\\', '\\']
  | '\t' => ['\\', 't']
  | '\r' => ['\\', 'r']
  | '\n' => ['\\', 'n']
  | '\x00' => ['\\', '0']
  | c => if isPrintable c && !isCombining c then [c] else numberEscape c

/-- The text between quotation marks. -/
def quoted (text : String) : String :=
  String.ofList (['"'] ++ text.toList.flatMap escape ++ ['"'])

end CallTrace.Text
