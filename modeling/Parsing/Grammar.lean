/-
Parsing.Grammar — the two grammars that come with the engine.

`words` takes an input apart into runs of ASCII letters and runs of
ASCII digits; `greetings` into the words hello, world, foo and bar and
runs of ASCII white space.  Both are repetitions, so neither ever
fails: a run stops where no further word is found.
-/
import Parsing.Expr

namespace Parsing

/-- A grammar that can be chosen by name. -/
inductive Grammar where
  /-- Runs of letters and runs of digits. -/
  | words
  /-- A handful of words, and white space. -/
  | greetings
deriving DecidableEq, Repr, Inhabited

namespace Grammar

/-- The name by which the grammar is chosen. -/
def name : Grammar → String
  | .words => "words"
  | .greetings => "greetings"

/-- All grammars. -/
def all : List Grammar := [.words, .greetings]

/-- The text in lower case, ASCII letters only. -/
def lowerCase (text : String) : String :=
  text.map Char.toLower

/-- The grammar of a name, which is taken as it stands or, on demand,
whatever the case of its ASCII letters. -/
def ofName? (ignoreCase : Bool) (name : String) : Option Grammar :=
  all.find? fun grammar =>
    if ignoreCase then lowerCase grammar.name == lowerCase name
    else grammar.name == name

theorem ofName?_name (ignoreCase : Bool) (grammar : Grammar) :
    ofName? ignoreCase grammar.name = some grammar := by
  cases ignoreCase <;> cases grammar <;> decide +kernel

/-- Grammars are found by their names, whatever the case of the ASCII
letters, and by nothing else. -/
def IgnoresCase (byName : String → Option Grammar) : Prop :=
  ∀ name grammar, byName name = some grammar ↔ lowerCase grammar.name = lowerCase name

theorem ignoresCase_ofName? : IgnoresCase (ofName? true) := by
  have hnames : lowerCase words.name ≠ lowerCase greetings.name := by decide +kernel
  intro name grammar
  simp only [ofName?, all, if_true, List.find?_cons, List.find?_nil]
  by_cases hwords : lowerCase words.name = lowerCase name
  · cases grammar with
    | words => simp [hwords]
    | greetings => simp [← hwords, hnames.symm]
  · have hfirst : (lowerCase words.name == lowerCase name) = false := by simpa using hwords
    by_cases hgreetings : lowerCase greetings.name = lowerCase name
    · cases grammar with
      | words => simp [hfirst, hgreetings, hwords]
      | greetings => simp [hfirst, hgreetings]
    · have hsecond : (lowerCase greetings.name == lowerCase name) = false := by
        simpa using hgreetings
      cases grammar with
      | words => simp [hfirst, hsecond, hwords]
      | greetings => simp [hfirst, hsecond, hgreetings]

/-- There is one way to do so. -/
theorem IgnoresCase.eq_ofName? {byName : String → Option Grammar} (h : IgnoresCase byName) :
    byName = ofName? true := by
  funext name
  apply Option.ext
  intro grammar
  rw [h, ignoresCase_ofName?]

/-- The words that `greetings` knows. -/
def greetingWords : List Literal :=
  [⟨"hello", by decide⟩, ⟨"world", by decide⟩, ⟨"foo", by decide⟩,
    ⟨"bar", by decide⟩]

/-- What the grammar's words are matched by, in the order in which it
is tried. -/
def matchers : Grammar → List Matcher
  | .words => [.charClass .letters, .charClass .digits]
  | .greetings => greetingWords.map .literal ++ [.charClass .whitespace]

/-- The grammar: one of its matchers, as often as one of them matches. -/
def expr (grammar : Grammar) : Expr (List String) :=
  .many (.choiceOfList (grammar.matchers.map .matcher))

/-- Runs the grammar on an input. -/
def run (grammar : Grammar) (target : String) : State (List String) :=
  grammar.expr.run target

end Grammar

end Parsing
