/-
Parsing.Options — what the program is asked to do, and what a run of it
comes to.

The options name what to parse (a file, a text, or, with neither, the
lines of the standard input), the grammar, and how to report.  A run is
a function of the options, the files and the input (`Options.run`): what
is written, and what went wrong, if anything.

How options are read off arguments is left open.  The program is a run
of the options that its reader of arguments makes of them, and ends at
once where the reader makes none (`runArguments`).
-/
import Parsing.Session

namespace Parsing

/-! ## Options -/

/-- What the program is asked to do. -/
structure Options where
  /-- The file to parse. -/
  file : Option String
  /-- The text to parse, where no file is given. -/
  text : Option String
  /-- The grammar to parse with, or to start with. -/
  grammar : Grammar
  /-- States are reported as JSON. -/
  asJson : Bool
  /-- A session tells the time that a parse took. -/
  verbose : Bool
deriving DecidableEq, Repr

/-! ## Runs -/

/-- Why a file has no text. -/
inductive ReadError where
  /-- There is no such file. -/
  | notFound
  /-- It is a directory. -/
  | isDirectory
  /-- Its bytes are no text. -/
  | notText
  /-- Something else, in the words of the system. -/
  | other (message : String)
deriving DecidableEq, Repr

/-- The message for a reader. -/
def ReadError.message : ReadError → String
  | .notFound => "No such file or directory (os error 2)"
  | .isDirectory => "Is a directory (os error 21)"
  | .notText => Text.notTextMessage
  | .other message => message

/-- What goes wrong in a run. -/
inductive Fault where
  /-- The file cannot be read. -/
  | unreadable (name : String) (cause : ReadError)
  /-- A line of the standard input is no text. -/
  | inputNotText
  /-- The grammar failed. -/
  | unparsed
deriving DecidableEq, Repr

/-- What went wrong in a session that ended so. -/
def Session.Ending.fault : Session.Ending → Option Fault
  | .finished => none
  | .notText => some .inputNotText

/-- The message for a reader, with the cause, if any, below it. -/
def Fault.message : Fault → String
  | .unreadable name cause =>
      "could not read '" ++ name ++ "'\n\nCaused by:\n    " ++ cause.message
  | .inputNotText => Text.notTextMessage
  | .unparsed => "the input could not be parsed"

/-- What a run writes to the standard output, and what went wrong. -/
structure Outcome where
  output : String
  fault : Option Fault
deriving DecidableEq, Repr

/-- The status with which the program ends. -/
def Outcome.exitCode (outcome : Outcome) : Nat :=
  if outcome.fault.isSome then 1 else 0

/-- What a run writes to the standard error stream. -/
def Outcome.errorOutput (outcome : Outcome) : String :=
  match outcome.fault with
  | some fault => "Error: " ++ fault.message ++ "\n"
  | none => ""

/-- The status with which the program ends when it refuses its
arguments. -/
def usageExitCode : Nat := 2

namespace Options

/-- How a session with these options writes. -/
def style (options : Options) : Session.Style where
  asJson := options.asJson
  verbose := options.verbose

/-- Parses a text and reports. -/
def runText (options : Options) (text : String) : Outcome :=
  let state := options.grammar.run text
  ⟨state.report options.asJson ++ "\n",
    if state.isError then some .unparsed else none⟩

/-- Parses the contents of a file without the carriage returns and line
feeds at their end. -/
def runFile (options : Options) (name : String)
    (contents : Except ReadError (List UInt8)) : Outcome :=
  match contents with
  | .error cause => ⟨"", some (.unreadable name cause)⟩
  | .ok bytes =>
      match Text.decode? bytes with
      | none => ⟨"", some (.unreadable name .notText)⟩
      | some text => options.runText (Text.withoutLineEnd text)

/-- Holds a session over the standard input. -/
def runLines (options : Options) (byName : String → Option Grammar)
    (elapsed : Session.Elapsed) (input : List UInt8) : Outcome :=
  let transcript := Session.run byName options.style options.grammar input
  ⟨transcript.text elapsed, transcript.ending.fault⟩

/-- Runs the program, given how a session reads the names of grammars,
what reading a file answers, how measured times are written, and the
bytes of the standard input.  Where both a file and a text are given,
the file is parsed. -/
def run (options : Options) (byName : String → Option Grammar)
    (read : String → Except ReadError (List UInt8)) (elapsed : Session.Elapsed)
    (input : List UInt8) : Outcome :=
  match options.file, options.text with
  | some name, _ => options.runFile name (read name)
  | none, some text => options.runText text
  | none, none => options.runLines byName elapsed input

end Options

/-- Runs the program on arguments: the status with which it ends, and
what it has written to the standard output.  `accept` reads arguments;
those that ask for no run have it end the program by itself. -/
def runArguments (accept : List String → Except (Nat × String) Options)
    (byName : String → Option Grammar) (arguments : List String)
    (read : String → Except ReadError (List UInt8)) (elapsed : Session.Elapsed)
    (input : List UInt8) : Nat × String :=
  match accept arguments with
  | .error ended => ended
  | .ok options =>
      let outcome := options.run byName read elapsed input
      (outcome.exitCode, outcome.output)

end Parsing
