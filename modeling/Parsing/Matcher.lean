/-
Parsing.Matcher — the parsers that read the input themselves: a fixed
text, and the longest run of characters of a class.

Both want something to be left: a literal is never empty and neither is
a run, so a matcher that succeeds has moved.  A failed state is handed
on as it is.
-/
import Parsing.Parser
import Parsing.Text.Ascii
import Parsing.Text.Quoted

namespace Parsing

/-! ## Literals -/

/-- Why a parser cannot be built. -/
inductive BuildError where
  /-- A literal was given no text. -/
  | emptyLiteral
deriving DecidableEq, Repr

/-- The message for a reader. -/
def BuildError.message : BuildError → String
  | .emptyLiteral => "literal: cannot match an empty string"

/-- A fixed text to match.  It is not empty, since a parser that
succeeds without moving cannot be repeated. -/
structure Literal where
  /-- The text to match. -/
  expected : String
  expected_ne_empty : expected ≠ ""
deriving DecidableEq

namespace Literal

/-- The literal of a text, unless the text is empty. -/
def ofString (expected : String) : Except BuildError Literal :=
  if h : expected = "" then .error .emptyLiteral else .ok ⟨expected, h⟩

/-- How many characters of the input a mismatch quotes. -/
def excerptLength : Nat := 10

/-- The input ends where the literal was wanted. -/
def endOfInput (l : Literal) (index : Nat) : Failure :=
  .leaf .endOfInput index
    ("literal: tried to match " ++ Text.quoted l.expected
      ++ " but got unexpected end of input")

/-- The input goes on with something else than the literal. -/
def mismatch (l : Literal) (index : Nat) (rest : String) : Failure :=
  .leaf .literalMismatch index
    ("literal: tried to match " ++ Text.quoted l.expected ++ " but got "
      ++ Text.quoted (rest.take excerptLength).copy ++ "...")

/-- Matches the literal's text. -/
def parser (l : Literal) : Parser String :=
  fun s => s.andThen fun s _ =>
    let rest := s.remaining
    if rest = "" then s.failWith (l.endOfInput s.index)
    else if rest.startsWith l.expected then
      s.advance l.expected.utf8ByteSize l.expected
    else s.failWith (l.mismatch s.index rest)

end Literal

/-! ## Character classes -/

/-- A named set of characters. -/
structure CharClass where
  /-- The name, for messages. -/
  name : String
  /-- Whether a character belongs to the class. -/
  accepts : Char → Bool

namespace CharClass

/-- The input ends where the class was wanted. -/
def endOfInput (c : CharClass) (index : Nat) : Failure :=
  .leaf .endOfInput index
    (c.name ++ ": tried to match but got unexpected end of input")

/-- The input goes on with a character outside the class. -/
def mismatch (c : CharClass) (index : Nat) : Failure :=
  .leaf .classMismatch index
    (c.name ++ ": could not match " ++ c.name ++ " at index " ++ toString index)

/-- Matches the longest run of characters of the class, which must not
be empty. -/
def parser (c : CharClass) : Parser String :=
  fun s => s.andThen fun s _ =>
    let rest := s.remaining
    if rest = "" then s.failWith (c.endOfInput s.index)
    else
      let run := Text.leadingRun c.accepts rest
      if run = "" then s.failWith (c.mismatch s.index)
      else s.advance run.utf8ByteSize run

/-- The ASCII letters. -/
def letters : CharClass where
  name := "letters"
  accepts := Char.isAlpha

/-- The ASCII digits. -/
def digits : CharClass where
  name := "digits"
  accepts := Char.isDigit

/-- The ASCII white space. -/
def whitespace : CharClass where
  name := "whitespace"
  accepts := Text.isAsciiBlank

end CharClass

/-! ## Matchers -/

/-- A parser that reads the input itself. -/
inductive Matcher where
  /-- Matches a fixed text. -/
  | literal (l : Literal)
  /-- Matches the longest run of characters of a class. -/
  | charClass (c : CharClass)

/-- Matches the text. -/
def Matcher.parser : Matcher → Parser String
  | .literal l => l.parser
  | .charClass c => c.parser

end Parsing
