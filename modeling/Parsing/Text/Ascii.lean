/-
Parsing.Text.Ascii — classes of ASCII characters beyond the letters and
digits.  A character outside ASCII is in none of them.
-/

namespace Parsing.Text

/-- Space, tab, line feed, form feed and carriage return. -/
def isAsciiBlank (c : Char) : Bool :=
  c == ' ' || c == '\t' || c == '\n' || c == '\x0c' || c == '\r'

/-- An ASCII character. -/
def isAscii (c : Char) : Bool :=
  c.toNat < 0x80

end Parsing.Text
