/-
Parsing.Session — a session: lines in, a transcript out.

Every line is parsed by itself with the grammar that is selected.  A
line can also select another grammar or end the session; blank lines
are passed over.  Before each line stands a prompt with the number of
lines parsed so far and the selected grammar.  A session ends on its
leaving line, at the end of its lines, or at the first line that is no
text.  How the name of a grammar is read is not for a session to decide,
which is given a function for it.

The transcript is a list of pieces, each of which says what it is, and
`Piece.text` is how it is written.  So the prompts, the reports and the
timings of a transcript can be told apart whatever the input holds.
-/
import Parsing.Grammar
import Parsing.Report
import Parsing.Text.Blank
import Parsing.Text.Line

namespace Parsing

/-- What a session remembers between two lines. -/
structure Session where
  /-- The grammar that is selected. -/
  grammar : Grammar
  /-- How many lines have been parsed.  This count has no bound, and a
  counter of 32 bits with a sign runs over at 2^31 lines; so what is said
  of sessions is said of those in which fewer are parsed. -/
  parsed : Nat
deriving DecidableEq, Repr

namespace Session

/-- How a session writes. -/
structure Style where
  /-- States are reported as JSON. -/
  asJson : Bool
  /-- Every report is preceded by the time that the parse took. -/
  verbose : Bool
deriving DecidableEq, Repr

/-! ## Lines -/

/-- What a line asks for. -/
inductive Command where
  /-- Nothing. -/
  | skip
  /-- The end of the session. -/
  | leave
  /-- Another grammar, by its name. -/
  | select (name : String)
  /-- A parse of the line's text. -/
  | parse (text : String)
deriving DecidableEq, Repr

/-- The line that ends a session. -/
def leaveWord : String := "exit"

/-- What a line that selects a grammar starts with. -/
def selectWord : String := ":grammar"

/-- What a line asks for.  Blanks at its ends matter only to a parse,
and there its line end does not. -/
def Command.ofLine (line : String) : Command :=
  let text := Text.withoutLineEnd line
  let word := Text.trimmed text
  if word = "" then .skip
  else if word = leaveWord then .leave
  else if word.startsWith selectWord then
    .select (Text.trimmed (word.drop selectWord.length).copy)
  else .parse text

/-! ## Transcripts -/

/-- A piece of a transcript. -/
inductive Piece where
  /-- A line is waited for. -/
  | prompt (session : Session)
  /-- A grammar was asked for by a name that none has. -/
  | unknownGrammar (name : String)
  /-- How long a parse took. -/
  | timing
  /-- The report of a parse. -/
  | report (text : String)
  /-- The lines are at their end. -/
  | farewell
deriving DecidableEq, Repr

/-- The time that a parse took, in milliseconds and in microseconds, as
it is written. -/
structure Elapsed where
  millis : String
  micros : String

/-- How a piece is written; a timing writes the time given. -/
def Piece.text (elapsed : Elapsed) : Piece → String
  | .prompt session =>
      "(" ++ toString session.parsed ++ ") weft [" ++ session.grammar.name ++ "] | "
  | .unknownGrammar name => "ERROR: unknown grammar '" ++ name ++ "'\n"
  | .timing =>
      "Parsing time: " ++ elapsed.millis ++ " ms (" ++ elapsed.micros ++ " µs)\n"
  | .report text => text ++ "\n"
  | .farewell => leaveWord ++ "\n"

/-- How a session ended. -/
inductive Ending where
  /-- On a leaving line or at the end of the lines. -/
  | finished
  /-- At a line that is no text. -/
  | notText
deriving DecidableEq, Repr

/-- What a session wrote, and how it ended. -/
structure Transcript where
  pieces : List Piece
  ending : Ending
deriving DecidableEq, Repr

/-- Pieces before a transcript. -/
def Transcript.after (pieces : List Piece) (rest : Transcript) : Transcript :=
  { rest with pieces := pieces ++ rest.pieces }

/-- All that a session wrote, in one text. -/
def Transcript.text (elapsed : Elapsed) (t : Transcript) : String :=
  String.join (t.pieces.map (Piece.text elapsed))

/-! ## Steps -/

/-- What a session does about a command: how it goes on, and what it
writes; nothing when it ends.  Names of grammars are read by `byName`. -/
def respond (byName : String → Option Grammar) (style : Style) (session : Session) :
    Command → Option (Session × List Piece)
  | .skip => some (session, [])
  | .leave => none
  | .select name =>
      match byName name with
      | some grammar => some ({ session with grammar := grammar }, [])
      | none => some (session, [.unknownGrammar name])
  | .parse text =>
      let report := (session.grammar.run text).report style.asJson
      some ({ session with parsed := session.parsed + 1 },
        (if style.verbose then [.timing] else []) ++ [.report report])

/-- The transcript of a session over lines, of which one may be no
text. -/
def transcript (byName : String → Option Grammar) (style : Style) :
    Session → List (Option String) → Transcript
  | session, [] => ⟨[.prompt session, .farewell], .finished⟩
  | session, none :: _ => ⟨[.prompt session], .notText⟩
  | session, some line :: lines =>
      match session.respond byName style (.ofLine line) with
      | none => ⟨[.prompt session], .finished⟩
      | some (next, pieces) =>
          (transcript byName style next lines).after (.prompt session :: pieces)

/-- A session that starts with a grammar. -/
def start (grammar : Grammar) : Session where
  grammar := grammar
  parsed := 0

/-- The transcript of a session over bytes. -/
def run (byName : String → Option Grammar) (style : Style) (grammar : Grammar)
    (input : List UInt8) : Transcript :=
  transcript byName style (start grammar) ((Text.cutLines input).map Text.decode?)

end Session

end Parsing
