/-
Parsing.Text.Blank — white space as Unicode has it, and cutting it off
the ends of a text.
-/

namespace Parsing.Text

/-- The characters with the property White_Space. -/
def isBlank (c : Char) : Bool :=
  let n := c.toNat
  (0x9 ≤ n && n ≤ 0xd) || n == 0x20 || n == 0x85 || n == 0xa0 || n == 0x1680
    || (0x2000 ≤ n && n ≤ 0x200a) || n == 0x2028 || n == 0x2029 || n == 0x202f
    || n == 0x205f || n == 0x3000

/-- Leaves out the last characters that the predicate accepts. -/
def dropLastWhile (accepts : Char → Bool) (chars : List Char) : List Char :=
  (chars.reverse.dropWhile accepts).reverse

/-- The text without the blanks at its ends. -/
def trimmed (text : String) : String :=
  String.ofList (dropLastWhile isBlank (text.toList.dropWhile isBlank))

/-- Carriage returns and line feeds end a line. -/
def isLineEnd (c : Char) : Bool :=
  c == '\n' || c == '\r'

/-- The text without the carriage returns and line feeds at its end. -/
def withoutLineEnd (text : String) : String :=
  String.ofList (dropLastWhile isLineEnd text.toList)

end Parsing.Text
