/-
Parsing.Failure — why a parse failed.

A failure is a tree: a kind, the offset at which it arose, a message to
read, and the failures that led to it.  A choice that ran out of
alternatives keeps one cause per alternative; every other failure the
engine reports is a leaf.
-/

namespace Parsing

/-- What kind of thing went wrong. -/
inductive Failure.Kind where
  /-- Input was required and none was left. -/
  | endOfInput
  /-- The input does not start with the literal. -/
  | literalMismatch
  /-- The first character is outside the class. -/
  | classMismatch
  /-- Every alternative of a choice failed. -/
  | exhaustedAlternatives
  /-- A one-or-more repetition kept nothing. -/
  | emptyRepetition
  /-- A failure that a user of the engine made. -/
  | custom
deriving DecidableEq, Repr, Inhabited

/-- The kind's name in the JSON form. -/
def Failure.Kind.name : Failure.Kind → String
  | .endOfInput => "end-of-input"
  | .literalMismatch => "literal-mismatch"
  | .classMismatch => "class-mismatch"
  | .exhaustedAlternatives => "exhausted-alternatives"
  | .emptyRepetition => "empty-repetition"
  | .custom => "custom"

/-- All kinds, in the order of their declaration. -/
def Failure.Kind.all : List Failure.Kind :=
  [.endOfInput, .literalMismatch, .classMismatch, .exhaustedAlternatives,
    .emptyRepetition, .custom]

/-- The kind of a given name. -/
def Failure.Kind.ofName? (name : String) : Option Failure.Kind :=
  Failure.Kind.all.find? (fun kind => kind.name == name)

theorem Failure.Kind.ofName?_name (kind : Failure.Kind) :
    Failure.Kind.ofName? kind.name = some kind := by
  cases kind <;> decide

theorem Failure.Kind.name_injective {a b : Failure.Kind} (h : a.name = b.name) :
    a = b := by
  have ha := Failure.Kind.ofName?_name a
  rw [h, Failure.Kind.ofName?_name b] at ha
  exact (Option.some.inj ha).symm

/-- A failure, with the failures that led to it. -/
structure Failure where
  /-- What kind of thing went wrong. -/
  kind : Failure.Kind
  /-- The byte offset at which it went wrong. -/
  index : Nat
  /-- The message for a reader. -/
  message : String
  /-- The failures that led to this one, in the order they arose. -/
  causes : List Failure
deriving Inhabited

namespace Failure

/-- A failure of its own, with no causes. -/
def leaf (kind : Kind) (index : Nat) (message : String) : Failure where
  kind := kind
  index := index
  message := message
  causes := []

/-- A failure that a user of the engine makes. -/
def custom (index : Nat) (message : String) : Failure :=
  leaf .custom index message

/-- The same failure with other causes. -/
def withCauses (failure : Failure) (causes : List Failure) : Failure :=
  { failure with causes := causes }

/-! ## Failures from failures

What `Parser.errorMap` wants: a function of the failure and of the
offset of the failed state. -/

/-- A failure of its own in the place of another, with offset and
message of the other in its message. -/
def retold (message : String) (failure : Failure) (index : Nat) : Failure :=
  custom index (message ++ " at " ++ toString index ++ ": " ++ failure.message)

/-! ## Equality

Two failures are the same when kind, index, message and all causes
are, to any depth. -/

mutual

/-- Decides whether two failures are the same. -/
def decideEq : (a b : Failure) → Decidable (a = b)
  | ⟨k, i, m, cs⟩, ⟨k', i', m', cs'⟩ =>
      match decideEqList cs cs' with
      | .isTrue hcs =>
          if h : k = k' ∧ i = i' ∧ m = m' then
            .isTrue (by obtain ⟨rfl, rfl, rfl⟩ := h; rw [hcs])
          else
            .isFalse (by rintro ⟨⟩; exact h ⟨rfl, rfl, rfl⟩)
      | .isFalse hcs => .isFalse (by rintro ⟨⟩; exact hcs rfl)

/-- Decides whether two lists of failures are the same. -/
def decideEqList : (as bs : List Failure) → Decidable (as = bs)
  | [], [] => .isTrue rfl
  | [], _ :: _ => .isFalse nofun
  | _ :: _, [] => .isFalse nofun
  | a :: as, b :: bs =>
      match decideEq a b, decideEqList as bs with
      | .isTrue ha, .isTrue has => .isTrue (by rw [ha, has])
      | .isFalse ha, _ => .isFalse (by rintro ⟨⟩; exact ha rfl)
      | _, .isFalse has => .isFalse (by rintro ⟨⟩; exact has rfl)

end

instance : DecidableEq Failure := decideEq

end Failure

end Parsing
