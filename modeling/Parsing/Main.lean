/-
Parsing.Main — the program: arguments, files, streams and the clock.

All that is decided is decided in `Parsing.CommandLine`,
`Parsing.Options` and `Parsing.Session`; here bytes are fetched and texts
are written.
-/
import Parsing.CommandLine

namespace Parsing.Main

/-- The bytes up to and with the next line feed; none at the end. -/
partial def readLine (stream : IO.FS.Stream) : IO (List UInt8) :=
  go #[]
where
  /-- Goes on after the bytes read so far. -/
  go (line : Array UInt8) : IO (List UInt8) := do
    let bytes ← stream.read 1
    match bytes.data.toList with
    | [] => return line.toList
    | byte :: _ =>
        let line := line.push byte
        if byte = Text.lineFeed then return line.toList else go line

/-- A span of nanoseconds as a session writes it. -/
def elapsed (nanos : Nat) : Session.Elapsed where
  millis := toString (nanos / 1000000)
  micros := toString (nanos / 1000)

/-- Holds a session over two streams. -/
partial def interact (style : Session.Style) (session : Session)
    (input output : IO.FS.Stream) : IO Session.Ending := do
  output.putStr ((Session.Piece.prompt session).text (elapsed 0))
  output.flush
  let line ← readLine input
  if line.isEmpty then
    output.putStr (Session.Piece.farewell.text (elapsed 0))
    return .finished
  match Text.decode? line with
  | none => return .notText
  | some text =>
      let start ← IO.monoNanosNow
      match session.respond (Grammar.ofName? true) style (.ofLine text) with
      | none => return .finished
      | some (next, pieces) =>
          let stop ← IO.monoNanosNow
          for piece in pieces do
            output.putStr (piece.text (elapsed (stop - start)))
          interact style next input output

/-- Reads a file. -/
def readFile (name : String) : IO (Except ReadError (List UInt8)) := do
  try
    let bytes ← IO.FS.readBinFile name
    return .ok bytes.data.toList
  catch
    | .noFileOrDirectory .. => return .error .notFound
    | .inappropriateType .. => return .error .isDirectory
    | e => return .error (.other (toString e))

/-- Writes what a run has come to, and answers its status. -/
def finish (outcome : Outcome) : IO UInt32 := do
  let output ← IO.getStdout
  output.putStr outcome.output
  output.flush
  (← IO.getStderr).putStr outcome.errorOutput
  return outcome.exitCode.toUInt32

/-- How the arguments can be given. -/
def usage : String :=
  "usage: weft [-v] [--json] [-g words|greetings] [-e EXPR | FILE]\n"

/-- Runs the program with options. -/
def runOptions (options : Options) : IO UInt32 := do
  match options.file, options.text with
  | some name, _ => finish (options.runFile name (← readFile name))
  | none, some text => finish (options.runText text)
  | none, none =>
      let ending ← interact options.style (Session.start options.grammar)
        (← IO.getStdin) (← IO.getStdout)
      finish ⟨"", ending.fault⟩

end Parsing.Main

/-- The program. -/
def main (arguments : List String) : IO UInt32 := do
  match Parsing.CommandLine.options arguments with
  | .ok options => Parsing.Main.runOptions options
  | .error e =>
      (← IO.getStderr).putStr ("error: " ++ e.message ++ "\n" ++ Parsing.Main.usage)
      return Parsing.usageExitCode.toUInt32
