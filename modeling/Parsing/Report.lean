/-
Parsing.Report — the two ways to report a state: a text for a reader
and a JSON text.

The text says where the parse stands and with what.  Under a failure it
lists the direct causes, one a line; under a success it names the input
that was left unparsed, if any.
-/
import Parsing.State
import Parsing.Inspect
import Parsing.Json

namespace Parsing

/-! ## JSON forms -/

namespace Failure

mutual

/-- The JSON form of a failure; the causes are left out when there are
none. -/
def json : Failure → Json
  | ⟨kind, index, message, causes⟩ =>
      .obj ([("kind", .str kind.name), ("index", .num index),
        ("message", .str message)]
        ++ if causes.isEmpty then [] else [("causes", .arr (jsonList causes))])

/-- The JSON forms of a list of failures. -/
def jsonList : List Failure → List Json
  | [] => []
  | failure :: failures => failure.json :: jsonList failures

end

end Failure

instance : ToJson Failure where
  toJson := Failure.json

namespace State

variable {α : Type}

/-- The JSON form of a state: offset, whether it failed, and the value
or the failure. -/
def json [ToJson α] (s : State α) : Json :=
  .obj [("index", .num s.index), ("is_error", .bool s.isError),
    match s.outcome with
    | .ok value => ("result", toJson value)
    | .error failure => ("error", toJson failure)]

instance [ToJson α] : ToJson (State α) where
  toJson := State.json

/-! ## Text -/

/-- Where the parse stands and with what, on one line. -/
def summary [Inspect α] (s : State α) : String :=
  match s.outcome with
  | .ok value => "ok @ " ++ toString s.index ++ ": " ++ inspect value
  | .error failure => "error @ " ++ toString s.index ++ ": " ++ failure.message

/-- What stands under the summary: the causes of a failure, or the
input left unparsed by a success. -/
def details (s : State α) : String :=
  match s.outcome with
  | .error failure =>
      String.join (failure.causes.map fun cause => "\n  caused by: " ++ cause.message)
  | .ok _ =>
      if s.remaining = "" then ""
      else "\n  unparsed: " ++ Text.quoted s.remaining

/-- The report of a state, as a JSON text or as a text for a reader. -/
def report [Inspect α] [ToJson α] (s : State α) (asJson : Bool) : String :=
  if asJson then s.json.text else s.summary ++ s.details

end State

end Parsing
