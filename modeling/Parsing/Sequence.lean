/-
Parsing.Sequence — one parser after the other.

Each parser starts where the one before it stopped; the first failure
is the answer, as it stands, and what comes after it is not run.  Two
parsers in a row (`Parser.and`) leave an incoming failure to the first
of them; a list of parsers (`Parser.sequenceOf`) hands it on.
-/
import Parsing.Parser

namespace Parsing.Parser

universe u v

variable {α : Type u} {β : Type v}

/-- Runs two parsers in a row and pairs their values. -/
def and (p : Parser α) (q : Parser β) : Parser (α × β) :=
  fun s => (p s).andThen fun s a => (q s).andThen fun s b => s.withResult (a, b)

/-- Runs all parsers in a row from a successful state. -/
def inOrder : List (Parser α) → Parser (List α)
  | [], s => s.withResult []
  | p :: ps, s => (p s).andThen fun s a => (inOrder ps s).mapResult (a :: ·)

/-- Runs all parsers in a row and lists their values. -/
def sequenceOf (ps : List (Parser α)) : Parser (List α) :=
  fun s => s.andThen fun s _ => inOrder ps s

end Parsing.Parser
