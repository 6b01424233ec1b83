/-
Parsing.CommandLine — a reader of the program's arguments.

Short flags can be grouped, a value can be attached to its flag or
follow it, and two dashes end the flags.  Everything may be given once,
and a file and a text not both.  There is no flag that asks for help: it
is refused like any that is unknown.
-/
import Parsing.Options

namespace Parsing

/-- Why arguments are refused. -/
inductive UsageError where
  /-- There is no such flag. -/
  | unknownFlag (flag : String)
  /-- A flag wants a value and has none. -/
  | missingValue (flag : String)
  /-- A flag takes no value and has one. -/
  | unwantedValue (flag : String)
  /-- A flag stands there twice. -/
  | repeated (flag : String)
  /-- There is no grammar of the name. -/
  | unknownGrammar (name : String)
  /-- A second file is named. -/
  | secondFile (name : String)
  /-- Both a file and a text are given. -/
  | fileAndText
deriving DecidableEq, Repr

/-- The message for a reader. -/
def UsageError.message : UsageError → String
  | .unknownFlag flag => "there is no flag " ++ flag
  | .missingValue flag => flag ++ " wants a value"
  | .unwantedValue flag => flag ++ " takes no value"
  | .repeated flag => flag ++ " can be given only once"
  | .unknownGrammar name => "there is no grammar '" ++ name ++ "'"
  | .secondFile name => "there is a file already, besides '" ++ name ++ "'"
  | .fileAndText => "a file and a text cannot both be given"

namespace CommandLine

/-- What has been read of the arguments. -/
structure Given where
  file : Option String := none
  text : Option String := none
  grammar : Option Grammar := none
  asJson : Bool := false
  verbose : Bool := false
deriving DecidableEq, Repr

/-! ## Flags -/

/-- A flag that takes a value. -/
inductive ValueFlag where
  /-- The text to parse. -/
  | text
  /-- The grammar to parse with. -/
  | grammar
deriving DecidableEq, Repr

/-- The flag as it is written out. -/
def ValueFlag.name : ValueFlag → String
  | .text => "--expr"
  | .grammar => "--grammar"

/-- Takes note of a flag's value. -/
def Given.setValue (given : Given) : ValueFlag → String → Except UsageError Given
  | .text, value =>
      if given.text.isSome then .error (.repeated ValueFlag.text.name)
      else .ok { given with text := some value }
  | .grammar, value =>
      if given.grammar.isSome then .error (.repeated ValueFlag.grammar.name)
      else
        match Grammar.ofName? false value with
        | some grammar => .ok { given with grammar := some grammar }
        | none => .error (.unknownGrammar value)

/-- Takes note of the wish for JSON. -/
def Given.setJson (given : Given) : Except UsageError Given :=
  if given.asJson then .error (.repeated "--json")
  else .ok { given with asJson := true }

/-- Takes note of the wish for timings. -/
def Given.setVerbose (given : Given) : Except UsageError Given :=
  if given.verbose then .error (.repeated "-v")
  else .ok { given with verbose := true }

/-- Takes note of a file. -/
def Given.setFile (given : Given) (name : String) : Except UsageError Given :=
  if given.file.isSome then .error (.secondFile name)
  else .ok { given with file := some name }

/-- What an argument, or the rest of one, comes to: all is noted, or a
value is still to come. -/
inductive Progress where
  | noted (given : Given)
  | wants (flag : ValueFlag) (given : Given)
deriving DecidableEq, Repr

/-- Reads a group of short flags.  A flag that takes a value takes what
is left of the group, without the equals sign before it. -/
def readShort (given : Given) : List Char → Except UsageError Progress
  | [] => .ok (.noted given)
  | 'v' :: rest =>
      match given.setVerbose with
      | .ok given => readShort given rest
      | .error e => .error e
  | 'e' :: rest => attached .text rest
  | 'g' :: rest => attached .grammar rest
  | c :: _ => .error (.unknownFlag (String.ofList ['-', c]))
where
  /-- What is left of a group is the value of its last flag. -/
  attached (flag : ValueFlag) : List Char → Except UsageError Progress
    | [] => .ok (.wants flag given)
    | '=' :: value => (given.setValue flag (String.ofList value)).map .noted
    | value => (given.setValue flag (String.ofList value)).map .noted

/-- Reads a long flag, with its value if one is attached by an equals
sign. -/
def readLong (given : Given) (flag : String) (value : Option String) :
    Except UsageError Progress :=
  if flag = "--json" then
    match value with
    | none => given.setJson.map .noted
    | some _ => .error (.unwantedValue flag)
  else if flag = ValueFlag.text.name then read .text
  else if flag = ValueFlag.grammar.name then read .grammar
  else .error (.unknownFlag flag)
where
  /-- The attached value, or the wish for one. -/
  read (flag : ValueFlag) : Except UsageError Progress :=
    match value with
    | none => .ok (.wants flag given)
    | some value => (given.setValue flag value).map .noted

/-- Splits an argument at its first equals sign. -/
def splitAtEquals (argument : List Char) : List Char × Option (List Char) :=
  match argument.dropWhile (· != '=') with
  | [] => (argument, none)
  | _ :: value => (argument.takeWhile (· != '='), some value)

/-- Whether an argument is a flag, or a group of flags: it starts with
a dash that does not stand alone. -/
def isFlag (argument : List Char) : Bool :=
  match argument with
  | '-' :: _ :: _ => true
  | _ => false

/-- Reads one argument. -/
def readArgument (given : Given) (argument : List Char) :
    Except UsageError Progress :=
  match argument with
  | '-' :: '-' :: _ =>
      let parts := splitAtEquals argument
      readLong given (String.ofList parts.1) (parts.2.map String.ofList)
  | '-' :: c :: rest => readShort given (c :: rest)
  | _ => (given.setFile (String.ofList argument)).map .noted

/-- Reads arguments after the two dashes that end the flags. -/
def readFiles (given : Given) : List String → Except UsageError Given
  | [] => .ok given
  | name :: names =>
      match given.setFile name with
      | .ok given => readFiles given names
      | .error e => .error e

/-- Reads arguments, of which the first may be wanted as a value. -/
def readArguments (given : Given) (wanting : Option ValueFlag) :
    List String → Except UsageError Given
  | [] =>
      match wanting with
      | none => .ok given
      | some flag => .error (.missingValue flag.name)
  | argument :: arguments =>
      match wanting with
      | some flag =>
          if isFlag argument.toList then .error (.missingValue flag.name)
          else
            match given.setValue flag argument with
            | .ok given => readArguments given none arguments
            | .error e => .error e
      | none =>
          if argument = "--" then readFiles given arguments
          else
            match readArgument given argument.toList with
            | .ok (.noted given) => readArguments given none arguments
            | .ok (.wants flag given) => readArguments given (some flag) arguments
            | .error e => .error e

/-- The options that were given, if they go together. -/
def Given.options (given : Given) : Except UsageError Options :=
  if given.file.isSome && given.text.isSome then .error .fileAndText
  else
    .ok ⟨given.file, given.text, given.grammar.getD .words, given.asJson, given.verbose⟩

/-- The options that arguments ask for, or why they are refused. -/
def options (arguments : List String) : Except UsageError Options :=
  match readArguments {} none arguments with
  | .ok given => given.options
  | .error e => .error e

/-- Reads arguments for a run.  Where they are refused, the program ends
with a status of its own and writes nothing to the standard output. -/
def accept (arguments : List String) : Except (Nat × String) Options :=
  (options arguments).mapError fun _ => (usageExitCode, "")

end CommandLine

end Parsing
