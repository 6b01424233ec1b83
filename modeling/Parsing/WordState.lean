/-
Parsing.WordState — moving forward in words of 64 bits.

The offsets of `State` are natural numbers, and a sum of two is a third.  A
machine has words.  A state that it can hold (`WordState`) has a word for an
offset, and an input whose size is one; it moves forward by a word.  The sum
saturates, is clamped to the size of the input, and is then raised by one
until it is a boundary.  Only then it matters whether the state has failed,
so the offset of a failed state, which may be any word, takes the same way.

Raising the largest word would overflow, and then there is no answer.  Past
the end of an input there are no boundaries, so a raise that came there would
go on to the largest word.
-/
import Parsing.State

namespace Parsing

universe u v

/-! ## Words -/

namespace Word

/-- The sum of two words, or the largest word if the sum is larger. -/
def saturatingAdd (a b : UInt64) : UInt64 :=
  .ofNat (min (a.toNat + b.toNat) (UInt64.size - 1))

theorem toNat_saturatingAdd (a b : UInt64) :
    (saturatingAdd a b).toNat = min (a.toNat + b.toNat) (UInt64.size - 1) :=
  UInt64.toNat_ofNat_of_lt' (by simp only [UInt64.size]; omega)

/-- Below the largest word, the next one is one more. -/
theorem toNat_add_one {a : UInt64} (h : a.toNat + 1 < UInt64.size) :
    (a + 1).toNat = a.toNat + 1 := by
  rw [UInt64.toNat_add]
  exact Nat.mod_eq_of_lt h

/-- Raises an offset by one until it is a boundary of the text, unless this
overflows. -/
def ceilBoundary? (text : String) (offset : UInt64) : Option UInt64 :=
  if Text.IsBoundary text offset.toNat then some offset
  else if _h : offset.toNat + 1 < UInt64.size then ceilBoundary? text (offset + 1)
  else none
termination_by UInt64.size - offset.toNat
decreasing_by
  rw [toNat_add_one _h]
  omega

end Word

/-! ## States -/

/-- A state as a machine can hold it. -/
structure WordState (α : Type u) where
  /-- The whole input of the run. -/
  target : String
  /-- The byte offset reached. -/
  index : UInt64
  /-- The latest value, or the failure that ended the parse. -/
  outcome : Except Failure α
  size_lt : target.utf8ByteSize < UInt64.size

namespace WordState

variable {α : Type u} {β : Type v}

/-- The same state, with a number for its offset. -/
def toState (s : WordState α) : State α where
  target := s.target
  index := s.index.toNat
  outcome := s.outcome

/-- Every state is of this form if its numbers are words. -/
theorem exists_toState_eq (s : State α) (hindex : s.index < UInt64.size)
    (hsize : s.target.utf8ByteSize < UInt64.size) : ∃ w : WordState α, w.toState = s := by
  refine ⟨⟨s.target, .ofNat s.index, s.outcome, hsize⟩, ?_⟩
  rw [toState, UInt64.toNat_ofNat_of_lt' hindex]

/-- How many bytes the input has. -/
def size (s : WordState α) : UInt64 :=
  .ofNat s.target.utf8ByteSize

theorem toNat_size (s : WordState α) : s.size.toNat = s.target.utf8ByteSize :=
  UInt64.toNat_ofNat_of_lt' s.size_lt

/-- Where a success would stop that moves forward by `length` bytes. -/
def stop? (s : WordState α) (length : UInt64) : Option UInt64 :=
  Word.ceilBoundary? s.target (min (Word.saturatingAdd s.index length) s.size)

/-- Moves forward by `length` bytes and replaces the value, unless this
overflows.  The offset is computed first, and a failed state has no use for
it. -/
def advance? (s : WordState α) (length : UInt64) (value : β) : Option (WordState β) :=
  (s.stop? length).map fun stop =>
    match s.outcome with
    | .ok _ => ⟨s.target, stop, .ok value, s.size_lt⟩
    | .error failure => ⟨s.target, s.index, .error failure, s.size_lt⟩

end WordState

end Parsing
