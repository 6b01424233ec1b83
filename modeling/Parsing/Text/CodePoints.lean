/-
Parsing.Text.CodePoints — sets of characters given by ranges of code
points, as the tables of a character property are.
-/

namespace Parsing.Text

/-- Ranges of code points, each from its first to its last member. -/
abbrev CodePoints : Type := List (Nat × Nat)

/-- Whether the character's code point lies in one of the ranges. -/
def CodePoints.contains (ranges : CodePoints) (c : Char) : Bool :=
  ranges.any (fun range => range.1 ≤ c.toNat && c.toNat ≤ range.2)

end Parsing.Text
