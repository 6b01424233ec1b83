/-
Parsing.Proofs.Advance — where a move forward stops.

A success that moves forward stops at the least boundary that is not before
the sum, or at the end of the input if the sum is past it
(`Text.isLeast_ceilBoundary`).  All that is said of the offset follows from
that: it grows with the length, it is the sum itself where that is a
boundary, and, since no character has more than four bytes, it is never far
from it.  Two moves make one if the first stops at its sum; in the middle of
a character the rounding of the first would be counted twice.

A machine computes the offset in words (`WordState.advance?`).  Its sum may be
cut off, but not below the size of the input, and clamped to that size the two
sums agree.  From there to the end of the input there is always a boundary, so
raising the offset gets no further (`Word.exists_ceilBoundary?`).
-/
import Mathlib
import Parsing.WordState
import Parsing.Proofs.Recognition

namespace Parsing

/-! ## The least boundary -/

namespace Text

variable {text : String} {offset : Nat}

theorem ceilBoundary_of_size_le (h : text.utf8ByteSize ≤ offset) :
    ceilBoundary text offset = text.utf8ByteSize := by
  rw [ceilBoundary, if_neg (Nat.not_lt.2 h)]

theorem ceilBoundary_min (text : String) (offset : Nat) :
    ceilBoundary text (min offset text.utf8ByteSize) = ceilBoundary text offset := by
  rcases Nat.le_total offset text.utf8ByteSize with hle | hge
  · rw [Nat.min_eq_left hle]
  · rw [Nat.min_eq_right hge, ceilBoundary_of_size_le (Nat.le_refl _),
      ceilBoundary_of_size_le hge]

theorem isLeast_ceilBoundary (text : String) (offset : Nat) :
    IsLeast {stop | IsBoundary text stop ∧ min offset text.utf8ByteSize ≤ stop}
      (ceilBoundary text offset) := by
  refine ⟨⟨isBoundary_ceilBoundary text offset, min_le_ceilBoundary text offset⟩, ?_⟩
  rintro stop ⟨hstop, hle⟩
  rw [← ceilBoundary_min]
  exact ceilBoundary_le hstop hle

/-- No character has more than four bytes, so there is a boundary near every
offset.  By induction on the characters: it is behind the first of them, or
among the others. -/
theorem exists_isBoundary_lt (h : offset ≤ text.utf8ByteSize) :
    ∃ stop, IsBoundary text stop ∧ offset ≤ stop ∧ stop < offset + 4 := by
  obtain ⟨chars, rfl⟩ : ∃ chars, text = String.ofList chars := ⟨text.toList, by simp⟩
  induction chars generalizing offset with
  | nil => exact ⟨0, isBoundary_zero _, by simpa using h, by omega⟩
  | cons c chars ih =>
    rw [String.ofList_cons] at h ⊢
    rw [String.utf8ByteSize_append, String.utf8ByteSize_singleton] at h
    have hsize := c.utf8Size_le_four
    by_cases hzero : offset = 0
    · exact ⟨0, isBoundary_zero _, by omega, by omega⟩
    by_cases hfirst : offset ≤ c.utf8Size
    · have hb := isBoundary_append (String.singleton c) (String.ofList chars)
      rw [String.utf8ByteSize_singleton] at hb
      exact ⟨_, hb, hfirst, by omega⟩
    · have hothers : offset - c.utf8Size ≤ (String.ofList chars).utf8ByteSize := by omega
      obtain ⟨stop, hstop, hle, hlt⟩ := ih hothers
      have hb := hstop.shift (String.singleton c)
      rw [String.utf8ByteSize_singleton] at hb
      exact ⟨_, hb, by omega, by omega⟩

theorem ceilBoundary_lt (text : String) (offset : Nat) :
    ceilBoundary text offset < min offset text.utf8ByteSize + 4 := by
  obtain ⟨stop, hstop, hle, hlt⟩ :=
    exists_isBoundary_lt (Nat.min_le_right offset text.utf8ByteSize)
  exact Nat.lt_of_le_of_lt ((isLeast_ceilBoundary text offset).2 ⟨hstop, hle⟩) hlt

theorem ceilBoundary_mono (text : String) : Monotone (ceilBoundary text) := by
  intro offset offset' hle
  refine (isLeast_ceilBoundary text offset).2 ⟨isBoundary_ceilBoundary text offset', ?_⟩
  exact Nat.le_trans (min_le_min_right _ hle) (min_le_ceilBoundary text offset')

/-- From an offset that is no boundary, the least boundary is that from the
next offset on. -/
theorem ceilBoundary_of_not_isBoundary (hno : ¬ IsBoundary text offset)
    (h : offset < text.utf8ByteSize) :
    ceilBoundary text offset = ceilBoundary text (offset + 1) := by
  rw [ceilBoundary, if_pos h, if_neg hno]

theorem lt_size_of_not_isBoundary (hno : ¬ IsBoundary text offset)
    (h : offset ≤ text.utf8ByteSize) : offset < text.utf8ByteSize := by
  refine Nat.lt_of_le_of_ne h ?_
  rintro rfl
  exact hno (isBoundary_size text)

end Text

/-! ## In words -/

/-- Raised from an offset within the text, a word stops at the least
boundary.  By induction on the raises, none of which leaves the text. -/
theorem Word.exists_ceilBoundary? {text : String} {offset : UInt64}
    (hsize : text.utf8ByteSize < UInt64.size) (h : offset.toNat ≤ text.utf8ByteSize) :
    ∃ stop, ceilBoundary? text offset = some stop ∧
      stop.toNat = Text.ceilBoundary text offset.toNat := by
  fun_induction ceilBoundary? text offset with
  | case1 offset hb => exact ⟨offset, rfl, (Text.ceilBoundary_eq_self hb).symm⟩
  | case2 offset hno hnext ih =>
    have hlt := Text.lt_size_of_not_isBoundary hno h
    rw [toNat_add_one hnext] at ih
    rw [Text.ceilBoundary_of_not_isBoundary hno hlt]
    exact ih hlt
  | case3 offset hno hlast =>
    have hlt := Text.lt_size_of_not_isBoundary hno h
    omega

namespace WordState

universe u v

variable {α : Type u} {β : Type v}

/-- Cut off and clamped, the sum of two words is the clamped sum of two
numbers. -/
theorem toNat_min_saturatingAdd (s : WordState α) (length : UInt64) :
    (min (Word.saturatingAdd s.index length) s.size).toNat =
      min (s.index.toNat + length.toNat) s.target.utf8ByteSize := by
  have hsize := s.size_lt
  rw [UInt64.toNat_min, Word.toNat_saturatingAdd, toNat_size]
  omega

/-- In words, the offset is the same, and none overflows. -/
theorem exists_stop? (s : WordState α) (length : UInt64) :
    ∃ stop, s.stop? length = some stop ∧
      stop.toNat = Text.ceilBoundary s.target (s.index.toNat + length.toNat) := by
  have hstart := s.toNat_min_saturatingAdd length
  have hle : (min (Word.saturatingAdd s.index length) s.size).toNat ≤ s.target.utf8ByteSize := by
    rw [hstart]
    exact Nat.min_le_right _ _
  obtain ⟨stop, hstop, htoNat⟩ := Word.exists_ceilBoundary? s.size_lt hle
  rw [hstart, Text.ceilBoundary_min] at htoNat
  exact ⟨stop, hstop, htoNat⟩

theorem exists_advance? (s : WordState α) (length : UInt64) (value : β) :
    ∃ t, s.advance? length value = some t ∧
      t.toState = s.toState.advance length.toNat value := by
  obtain ⟨stop, hstop, htoNat⟩ := s.exists_stop? length
  obtain ⟨target, index, failure | a, hsize⟩ := s
  · exact ⟨_, by rw [advance?, hstop]; rfl, rfl⟩
  · refine ⟨⟨target, stop, .ok value, hsize⟩, by rw [advance?, hstop]; rfl, ?_⟩
    simp only [toState, State.advance_ok, htoNat]

end WordState

/-- **Where a move forward stops.**  If a state that a run can come to fits
into words, so does all that is computed from it: no sum overflows, raising
the offset ends within the input, and the state is the one that numbers give.
A success stops at the least boundary that is not before the sum, or at the
end of the input if the sum is past it; so it stops less than four bytes
further, no sooner for a greater length, and where it stands for none.  Two
moves are one if the first stops at its sum.  A failed state stays as it is,
wherever it stands. -/
theorem advance_finds_least_boundary {target : String} {α β γ : Type} {s : State α}
    (hs : State.Reachable target s) (first : β) (value : γ) :
    (s.index < UInt64.size → target.utf8ByteSize < UInt64.size →
      ∃ w : WordState α, w.toState = s ∧ ∀ length : UInt64, ∃ stop t,
        w.stop? length = some stop ∧ stop.toNat ≤ target.utf8ByteSize ∧
        w.advance? length value = some t ∧ t.toState = s.advance length.toNat value) ∧
    (s.isError = false →
      (∀ length, ∃ stop,
        s.advance length value = ⟨target, stop, .ok value⟩ ∧
        IsLeast {place | Text.IsBoundary target place ∧
          min (s.index + length) target.utf8ByteSize ≤ place} stop ∧
        stop < min (s.index + length) target.utf8ByteSize + 4) ∧
      Monotone (fun length => (s.advance length value).index) ∧
      (s.advance 0 value).index = s.index ∧
      ∀ a b, Text.IsBoundary target (s.index + a) →
        (s.advance a first).advance b value = s.advance (a + b) value) ∧
    ∀ failure, s.outcome = .error failure →
      ∀ length, s.advance length value = ⟨target, s.index, .error failure⟩ := by
  have htarget : s.target = target := hs.leadsTo.target_eq
  have hplaced := hs.leadsTo.wellPlaced
  refine ⟨fun hindex hsize => ?_, fun hok => ?_, fun failure hfailure length => ?_⟩
  · rw [← htarget] at hsize
    obtain ⟨w, rfl⟩ := WordState.exists_toState_eq s hindex hsize
    refine ⟨w, rfl, fun length => ?_⟩
    obtain ⟨stop, hstop, htoNat⟩ := w.exists_stop? length
    obtain ⟨t, hadvance, ht⟩ := w.exists_advance? length value
    have hwithin : stop.toNat ≤ target.utf8ByteSize := by
      rw [htoNat, ← htarget]
      exact (Text.isBoundary_ceilBoundary _ _).le_size
    exact ⟨stop, t, hstop, hwithin, hadvance, ht⟩
  · obtain ⟨t, i, failure | a⟩ := s
    · exact Bool.noConfusion hok
    obtain rfl : t = target := htarget
    have hi : Text.IsBoundary t i := hplaced
    refine ⟨fun length => ⟨_, rfl, Text.isLeast_ceilBoundary t (i + length),
      Text.ceilBoundary_lt t (i + length)⟩, fun length length' hle => ?_,
      Text.ceilBoundary_eq_self hi, fun a b hb => ?_⟩
    · exact Text.ceilBoundary_mono t (Nat.add_le_add_left hle i)
    · rw [State.advance_ok, State.advance_ok, State.advance_ok, Text.ceilBoundary_eq_self hb,
        Nat.add_assoc]
  · obtain ⟨t, i, e | a⟩ := s
    · obtain rfl : t = target := htarget
      rw [State.advance_error, Except.error.inj hfailure]
    · cases hfailure

/-- Within a character they are not: the second move starts behind it. -/
example : (((State.initial "éa").advance 1 ()).advance 1 ()).index = 3 ∧
    ((State.initial "éa").advance 2 ()).index = 2 := by cbv

/-- A failure at the largest word, far past the end of its input. -/
def failedFarOut : State Unit :=
  (State.initial "aéß").fail .custom (UInt64.size - 1) "far out"

/-- From behind the first character over the second, and then into the third;
and by the largest word from the largest word, after a failure there. -/
theorem advance_finds_least_boundary_at_largest_word :
    (State.Reachable "aéß" (⟨"aéß", 1, .ok ()⟩ : State Unit) ∧ Text.IsBoundary "aéß" (1 + 2) ∧
      ((⟨"aéß", 1, .ok ()⟩ : State Unit).advance 2 "é").advance 1 "ß" =
        (⟨"aéß", 1, .ok ()⟩ : State Unit).advance (2 + 1) "ß") ∧
    State.Reachable "aéß" failedFarOut ∧
    ∃ (w : WordState Unit) (t : WordState String), w.toState = failedFarOut ∧
      w.advance? (.ofNat (UInt64.size - 1)) "ß" = some t ∧
      t.toState = ⟨"aéß", UInt64.size - 1, .error (.custom (UInt64.size - 1) "far out")⟩ := by
  have hs : State.Reachable "aéß" (⟨"aéß", 1, .ok ()⟩ : State Unit) :=
    State.reachable_of_isBoundary (by decide)
  have hb : Text.IsBoundary "aéß" (1 + 2) := by decide
  obtain ⟨-, hsuccess, -⟩ := advance_finds_least_boundary hs "é" "ß"
  refine ⟨⟨hs, hb, (hsuccess rfl).2.2.2 2 1 hb⟩, ?_⟩
  have hfailed : State.Reachable "aéß" failedFarOut :=
    .next .start (.operation (.fail _ .custom (UInt64.size - 1) "far out"))
  obtain ⟨hwords, -, hstays⟩ := advance_finds_least_boundary hfailed "é" "ß"
  obtain ⟨w, hw, hlengths⟩ := hwords (by decide) (by decide)
  obtain ⟨-, t, -, -, hadvance, ht⟩ := hlengths (.ofNat (UInt64.size - 1))
  exact ⟨hfailed, w, t, hw, hadvance, ht.trans (hstays _ rfl _)⟩

end Parsing
