/-
Parsing.State — where a parse stands.

A state is the whole input, a byte offset into it, and the latest
outcome: a value, or the failure that ended the parse.  Parsers take a
state and give back another; nothing is changed in place.

Three rules hold of every operation here.  The input never changes.  A
success moves forward only, and stops at a boundary of the input.  A
failed state stays failed, and its offset is that of its failure.
`State.WellPlaced` says what they leave true of every state.
-/
import Parsing.Failure
import Parsing.Text.Offset

namespace Parsing

universe u v

/-- The input, the offset reached, and the latest outcome. -/
structure State (α : Type u) where
  /-- The whole input of the run. -/
  target : String
  /-- The byte offset reached. -/
  index : Nat
  /-- The latest value, or the failure that ended the parse. -/
  outcome : Except Failure α

namespace State

variable {α : Type u} {β : Type v}

/-! ## Reading a state -/

/-- The state in which a run on `target` starts. -/
def initial (target : String) : State Unit where
  target := target
  index := 0
  outcome := .ok ()

/-- The input yet to be consumed: nothing when the offset is no
boundary of the input. -/
def remaining (s : State α) : String :=
  Text.dropBytes s.target s.index

/-- The failure, if the parse has failed. -/
def failure? (s : State α) : Option Failure :=
  match s.outcome with
  | .ok _ => none
  | .error failure => some failure

/-- Whether the parse has failed. -/
def isError (s : State α) : Bool :=
  s.failure?.isSome

/-- Two states are the same when input, offset and outcome are. -/
instance [DecidableEq α] : DecidableEq (State α)
  | ⟨t, i, .ok v⟩, ⟨t', i', .ok v'⟩ =>
      decidable_of_iff (t = t' ∧ i = i' ∧ v = v') (by simp)
  | ⟨t, i, .error e⟩, ⟨t', i', .error e'⟩ =>
      decidable_of_iff (t = t' ∧ i = i' ∧ e = e') (by simp)
  | ⟨_, _, .ok _⟩, ⟨_, _, .error _⟩ => .isFalse (by simp)
  | ⟨_, _, .error _⟩, ⟨_, _, .ok _⟩ => .isFalse (by simp)

/-! ## Moving on -/

/-- Moves forward by `length` bytes and replaces the value.  The offset
stops at the end of the input, and is rounded up to a boundary.  A
failed state stays as it is. -/
def advance (s : State α) (length : Nat) (value : β) : State β :=
  match s.outcome with
  | .ok _ => ⟨s.target, Text.ceilBoundary s.target (s.index + length), .ok value⟩
  | .error failure => ⟨s.target, s.index, .error failure⟩

/-- Applies a function to the value of a success. -/
def mapResult (s : State α) (f : α → β) : State β :=
  ⟨s.target, s.index, s.outcome.map f⟩

/-- Replaces the value of a success. -/
def withResult (s : State α) (value : β) : State β :=
  s.mapResult (fun _ => value)

/-- Ends the parse with a failure, at the failure's own offset. -/
def failWith (s : State α) (failure : Failure) : State β :=
  ⟨s.target, failure.index, .error failure⟩

/-- Ends the parse with a failure that has no causes. -/
def fail (s : State α) (kind : Failure.Kind) (index : Nat) (message : String) :
    State β :=
  s.failWith (.leaf kind index message)

/-- Applies a function to the failure of a failed state, and moves to
the offset of the new failure.  The function is given the failure and
the state's offset. -/
def mapError (s : State α) (f : Failure → Nat → Failure) : State α :=
  match s.outcome with
  | .ok _ => s
  | .error failure => s.failWith (f failure s.index)

/-- Takes a success apart into a state with no value yet, ready for the
next parser, and the value; hands a failure on at another type. -/
def split (s : State α) : Except (State β) (State Unit × α) :=
  match s.outcome with
  | .ok value => .ok (⟨s.target, s.index, .ok ()⟩, value)
  | .error failure => .error ⟨s.target, s.index, .error failure⟩

/-- Goes on from a success; a failure is the answer as it stands. -/
def andThen (s : State α) (next : State Unit → α → State β) : State β :=
  match s.split with
  | .ok (rest, value) => next rest value
  | .error failed => failed

/-! ## Where states stand -/

/-- The state stands where the rules put it: a success at a boundary of
its input, a failed state at the offset of its failure. -/
def WellPlaced (s : State α) : Prop :=
  match s.outcome with
  | .ok _ => Text.IsBoundary s.target s.index
  | .error failure => s.index = failure.index

theorem wellPlaced_initial (target : String) : (initial target).WellPlaced :=
  Text.isBoundary_zero target

/-- Standing between `u` and `w`, a state has `w` left. -/
@[simp]
theorem remaining_append (u w : String) (outcome : Except Failure α) :
    remaining ⟨u ++ w, u.utf8ByteSize, outcome⟩ = w :=
  Text.dropBytes_append u w

/-! ## Equations -/

@[simp]
theorem isError_ok (target : String) (index : Nat) (a : α) :
    isError ⟨target, index, .ok a⟩ = false := rfl

@[simp]
theorem isError_error (target : String) (index : Nat) (failure : Failure) :
    isError (⟨target, index, .error failure⟩ : State α) = true := rfl

@[simp]
theorem advance_ok (target : String) (index length : Nat) (a : α) (value : β) :
    advance ⟨target, index, .ok a⟩ length value =
      ⟨target, Text.ceilBoundary target (index + length), .ok value⟩ := rfl

@[simp]
theorem advance_error (target : String) (index length : Nat) (failure : Failure)
    (value : β) :
    advance (⟨target, index, .error failure⟩ : State α) length value =
      ⟨target, index, .error failure⟩ := rfl

@[simp]
theorem mapResult_ok (target : String) (index : Nat) (a : α) (f : α → β) :
    mapResult ⟨target, index, .ok a⟩ f = ⟨target, index, .ok (f a)⟩ := rfl

@[simp]
theorem mapResult_error (target : String) (index : Nat) (failure : Failure)
    (f : α → β) :
    mapResult ⟨target, index, .error failure⟩ f =
      ⟨target, index, .error failure⟩ := rfl

@[simp]
theorem withResult_ok (target : String) (index : Nat) (a : α) (value : β) :
    withResult ⟨target, index, .ok a⟩ value = ⟨target, index, .ok value⟩ := rfl

@[simp]
theorem withResult_error (target : String) (index : Nat) (failure : Failure)
    (value : β) :
    withResult (⟨target, index, .error failure⟩ : State α) value =
      ⟨target, index, .error failure⟩ := rfl

@[simp]
theorem mapError_ok (target : String) (index : Nat) (a : α)
    (f : Failure → Nat → Failure) :
    mapError ⟨target, index, .ok a⟩ f = ⟨target, index, .ok a⟩ := rfl

@[simp]
theorem mapError_error (target : String) (index : Nat) (failure : Failure)
    (f : Failure → Nat → Failure) :
    mapError (⟨target, index, .error failure⟩ : State α) f =
      ⟨target, (f failure index).index, .error (f failure index)⟩ := rfl

@[simp]
theorem andThen_ok (target : String) (index : Nat) (a : α)
    (next : State Unit → α → State β) :
    andThen ⟨target, index, .ok a⟩ next = next ⟨target, index, .ok ()⟩ a := rfl

@[simp]
theorem andThen_error (target : String) (index : Nat) (failure : Failure)
    (next : State Unit → α → State β) :
    andThen ⟨target, index, .error failure⟩ next =
      ⟨target, index, .error failure⟩ := rfl

end State

end Parsing
