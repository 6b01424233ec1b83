/-
Parsing.Inspect — values as a reader is shown them.

Texts are quoted, lists stand between brackets, pairs between
parentheses, and an alternative is named by its side.  Since texts are
quoted, no line feed of an input reaches what is shown.
-/
import Parsing.Text.Quoted

namespace Parsing

/-- Types whose values can be shown to a reader. -/
class Inspect (α : Type) where
  /-- The text that a reader is shown. -/
  inspect : α → String

export Inspect (inspect)

namespace Inspect

/-- Texts between brackets, with a comma and a space between them. -/
def bracketed (items : List String) : String :=
  "[" ++ ", ".intercalate items ++ "]"

/-- Two texts between parentheses. -/
def paired (first second : String) : String :=
  "(" ++ first ++ ", " ++ second ++ ")"

/-- A text named by its side. -/
def sided (side value : String) : String :=
  side ++ "(" ++ value ++ ")"

end Inspect

instance : Inspect Unit where
  inspect _ := "()"

instance : Inspect Nat where
  inspect := toString

instance : Inspect String where
  inspect := Text.quoted

instance {α : Type} [Inspect α] : Inspect (List α) where
  inspect items := Inspect.bracketed (items.map inspect)

instance {α β : Type} [Inspect α] [Inspect β] : Inspect (α × β) where
  inspect pair := Inspect.paired (inspect pair.1) (inspect pair.2)

instance {α β : Type} [Inspect α] [Inspect β] : Inspect (α ⊕ β) where
  inspect
    | .inl a => Inspect.sided "Left" (inspect a)
    | .inr b => Inspect.sided "Right" (inspect b)

end Parsing
