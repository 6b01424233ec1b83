/-
Parsing.Text.Quoted — the quoted form of a text, in which messages and
values are shown.

The text stands between double quotes.  A quote and a backslash are
preceded by a backslash; tab, carriage return, line feed and null have
short escapes; a character that cannot be shown, and a mark that would
join the character before it, is written by its code point.  Every
other character stands for itself, so a quoted text holds no line feed,
and no quote but its two ends is free of a backslash.
-/
import Parsing.Text.ExtendingMark
import Parsing.Text.Printable

namespace Parsing.Text

/-- The escape of a character by its code point, in lower case
hexadecimal without padding. -/
def codePointEscape (c : Char) : List Char :=
  '\\' :: 'u' :: '\x7b' :: (Nat.toDigits 16 c.toNat ++ ['\x7d'])

/-- A character as it stands in a quoted text. -/
def quotedChar (c : Char) : List Char :=
  match c with
  | '"' => ['\\', '"']
  | '\\' => ['\\', '\\']
  | '\t' => ['\\', 't']
  | '\r' => ['\\', 'r']
  | '\n' => ['\\', 'n']
  | '\x00' => ['\\', '0']
  | _ => if isExtendingMark c || !isPrintable c then codePointEscape c else [c]

/-- The quoted form of a text. -/
def quoted (text : String) : String :=
  String.ofList ('"' :: (text.toList.flatMap quotedChar ++ ['"']))

end Parsing.Text
